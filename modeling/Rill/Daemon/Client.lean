import Rill.Kernel.Graph
import Rill.Vt.Engine

/-!
# Clients

One connection on the attach socket: its role, its credit and the bytes it is
owed. A socket is a script too: what each read and each write comes to.
-/

namespace Rill.Daemon

open Lib Attach Kernel

inductive Error
  | kernel (e : Kernel.Error)
  | attach (e : Attach.Error)
  | vt (e : Vt.Error)
  | io
  deriving DecidableEq, Repr

inductive Read
  | data (bytes : List UInt8)
  | eof
  | wouldBlock
  | failed
  deriving DecidableEq, Repr

inductive Write
  | accept (n : Nat)
  | wouldBlock
  | failed
  deriving DecidableEq, Repr

/-- `sent` is what the socket has accepted so far. -/
structure Stream where
  reads : List Read
  writes : List Write
  sent : List UInt8
  deriving DecidableEq, Repr

/-- A socket on which frames have arrived, and then what `more` says. -/
def Stream.of (frames : List Frame) (more : List Read) (writes : List Write) : Stream :=
  ⟨.data (frames.flatMap Frame.wire) :: more, writes, []⟩

/-- `granted` is the credit the client ever added, `log` every frame ever put in the
outbox, `attachedAt` its length when the client took its present role, `attachedFrom`
what had been read from its leaf by then, and `leaves` every leaf it was ever
attached to; the daemon looks at none of them. -/
structure Client where
  stream : Stream
  decoder : Decoder
  outbox : List UInt8
  leaf : Option SessionId
  observe : Bool
  protocol : UInt8
  credit : Nat
  granted : Nat
  log : List Queued
  attachedAt : Nat
  attachedFrom : Nat
  leaves : List SessionId
  deriving DecidableEq, Repr

namespace Client

/-- A socket that has just been accepted has been sent nothing. -/
def new (stream : Stream) : Client where
  stream := { stream with sent := [] }
  decoder := .new
  outbox := []
  leaf := none
  observe := false
  protocol := protocolVersion
  credit := 0
  granted := 0
  log := []
  attachedAt := 0
  attachedFrom := 0
  leaves := []

def isWriter (c : Client) (id : SessionId) : Bool := c.leaf = some id && !c.observe

def isObserver (c : Client) (id : SessionId) : Bool := c.leaf = some id && c.observe

def push (c : Client) (q : Queued) (bytes : List UInt8) : Client :=
  { c with outbox := c.outbox ++ bytes, log := c.log ++ [q] }

/-- `outbox.extend(frame.encode()?)`. -/
def send (q : Queued) : Op Client Attach.Error Unit := do
  let bytes ← Op.lift q.frame.encode
  modify fun c => c.push q bytes

def hasRole (c : Client) (id : SessionId) (observe : Bool) (protocol : UInt8) : Bool :=
  c.leaf = some id && c.observe = observe && c.protocol = protocol

/-- The role an accepted ATTACH gives. Asking again for the role one has is not
a new attachment. -/
def setRole (c : Client) (id : SessionId) (observe : Bool) (protocol : UInt8) : Client :=
  { c with
    leaf := some id
    observe
    protocol
    attachedAt := if c.hasRole id observe protocol then c.attachedAt else c.log.length
    leaves := c.leaves.insert id }

/-- As `setRole`, when `taken` bytes have been read from the leaf. -/
def attachTo (c : Client) (id : SessionId) (observe : Bool) (protocol : UInt8) (taken : Nat) :
    Client :=
  { c.setRole id observe protocol with
    attachedFrom := if c.hasRole id observe protocol then c.attachedFrom else taken }

theorem hasRole_iff {c : Client} {id : SessionId} {observe : Bool} {protocol : UInt8} :
    c.hasRole id observe protocol = true ↔
      c.leaf = some id ∧ c.observe = observe ∧ c.protocol = protocol := by
  simp only [hasRole, Bool.and_eq_true, decide_eq_true_eq, and_assoc]

theorem isWriter_iff {c : Client} {id : SessionId} :
    c.isWriter id = true ↔ c.leaf = some id ∧ c.observe = false := by
  rw [isWriter, Bool.and_eq_true, decide_eq_true_eq, Bool.not_eq_true']

theorem hasRole_setRole (c : Client) (id : SessionId) (observe : Bool) (protocol : UInt8) :
    (c.setRole id observe protocol).hasRole id observe protocol = true :=
  hasRole_iff.mpr ⟨rfl, rfl, rfl⟩

theorem attachTo_of_hasRole {c : Client} {id : SessionId} {observe : Bool} {protocol : UInt8}
    (h : c.hasRole id observe protocol = true) (taken : Nat) :
    c.attachTo id observe protocol taken = c.setRole id observe protocol := by
  rw [attachTo, if_pos h]
  rfl

theorem attachTo_eq_self {c : Client} {id : SessionId} {observe : Bool} {protocol : UInt8}
    {taken : Nat} :
    c.attachTo id observe protocol taken = c ↔ c.setRole id observe protocol = c := by
  constructor
  · intro h
    have hrole : c.hasRole id observe protocol = true := by
      rw [← h]
      exact hasRole_setRole c id observe protocol
    rwa [attachTo_of_hasRole hrole] at h
  · intro h
    have hrole : c.hasRole id observe protocol = true := by
      rw [← h]
      exact hasRole_setRole c id observe protocol
    rwa [attachTo_of_hasRole hrole]

def addCredit (c : Client) (n : UInt32) : Client :=
  let credit := min (c.credit + n.toNat) u64Max
  { c with credit, granted := c.granted + (credit - c.credit) }

def read (c : Client) (n : Nat) : Read × Client :=
  let c' := { c with stream := { c.stream with reads := c.stream.reads.tail } }
  match c.stream.reads.headD .wouldBlock with
  | .data bytes => (if (bytes.take n).isEmpty then .eof else .data (bytes.take n), c')
  | other => (other, c')

/-- Writes until the outbox is empty, the socket takes no more, or it fails;
whether it did not fail, the writes left, the outbox and the bytes sent. -/
def writeLoop (writes : List Write) (outbox sent : List UInt8) :
    Bool × List Write × List UInt8 × List UInt8 :=
  match writes with
  | [] => (true, [], outbox, sent)
  | write :: rest =>
    if outbox.isEmpty then (true, write :: rest, outbox, sent)
    else match write with
      | .accept n =>
        if n = 0 then (true, rest, outbox, sent)
        else writeLoop rest (outbox.drop n) (sent ++ outbox.take n)
      | .wouldBlock => (true, rest, outbox, sent)
      | .failed => (false, rest, outbox, sent)

/-- Why a flush stops at a client. -/
inductive Stop
  | encode (e : Attach.Error)
  | write
  deriving DecidableEq, Repr

def writeOutbox : Op Client Stop Unit := do
  let c ← get
  let (ok, writes, outbox, sent) := writeLoop c.stream.writes c.outbox c.stream.sent
  modify fun c => { c with stream := { c.stream with writes, sent }, outbox }
  if !ok then throw .write

/-- The frames a flush gives one client: DATA is not for protocol 2. -/
def due (c : Client) (frames : List Queued) : List Queued :=
  frames.filter fun q => !(c.protocol = protocol2 && q.frame.isData)

/-- `frames` is what was queued for the client's leaf. -/
def serve (frames : List Queued) : Op Client Stop Unit := do
  let c ← get
  Op.mapError .encode ((c.due frames).forM send)
  writeOutbox

def liveChunk (credit n : Nat) : Option Nat :=
  if n = 0 then some 0 else if credit < n then none else some n

def spend (c : Client) (n : Nat) : Client := { c with credit := c.credit - n }

/-- Live bytes for a leaf's client. `offset` is the stream offset after them, as
the session counts it, and `start` where they start in what the child wrote. -/
def fanout (id : SessionId) (offset start : Nat) (bytes : List UInt8) :
    Op Client Attach.Error Unit := do
  let c ← get
  if c.leaf ≠ some id then pure ()
  else
    match liveChunk c.credit bytes.length with
    | none => pure ()
    | some n =>
      modify fun c => c.spend n
      let chunk := bytes.take n
      let frame := if c.protocol = protocol2 then
          Frame.delta (UInt64.ofNat (offset - bytes.length)) chunk
        else Frame.data chunk
      send ⟨frame, .live start⟩

-- ---------------------------------------------------------------------------
-- What is put in an outbox
-- ---------------------------------------------------------------------------

/-- `c'` is `c` in the role it had and with the credit it had, with `qs` put in its
outbox. -/
structure Sent (c c' : Client) (qs : List Queued) : Prop where
  leaf : c'.leaf = c.leaf
  observe : c'.observe = c.observe
  protocol : c'.protocol = c.protocol
  credit : c'.credit = c.credit
  granted : c'.granted = c.granted
  attachedAt : c'.attachedAt = c.attachedAt
  attachedFrom : c'.attachedFrom = c.attachedFrom
  log : c'.log = c.log ++ qs

namespace Sent

theorem refl (c : Client) : c.Sent c [] :=
  ⟨rfl, rfl, rfl, rfl, rfl, rfl, rfl, (List.append_nil _).symm⟩

theorem push (c : Client) (q : Queued) (bytes : List UInt8) : c.Sent (c.push q bytes) [q] :=
  ⟨rfl, rfl, rfl, rfl, rfl, rfl, rfl, rfl⟩

theorem trans {a b c : Client} {qs qs' : List Queued} (h : a.Sent b qs) (h' : b.Sent c qs') :
    a.Sent c (qs ++ qs') where
  leaf := h'.leaf.trans h.leaf
  observe := h'.observe.trans h.observe
  protocol := h'.protocol.trans h.protocol
  credit := h'.credit.trans h.credit
  granted := h'.granted.trans h.granted
  attachedAt := h'.attachedAt.trans h.attachedAt
  attachedFrom := h'.attachedFrom.trans h.attachedFrom
  log := by rw [h'.log, h.log, List.append_assoc]

end Sent

theorem exec_send (q : Queued) (c : Client) :
    (send q).exec c = match q.frame.encode with
      | .ok bytes => (.ok (), c.push q bytes)
      | .error e => (.error e, c) := by
  rw [send, Op.exec_bind, Op.exec_lift]
  cases q.frame.encode with
  | ok bytes => rfl
  | error e => rfl

theorem send_sent {q : Queued} {c : Client} (h : ((send q).exec c).1 = .ok ()) :
    c.Sent ((send q).exec c).2 [q] := by
  rw [exec_send] at h ⊢
  cases hencode : q.frame.encode with
  | ok bytes => exact .push c q bytes
  | error e =>
    rw [hencode] at h
    cases h

theorem forM_send_sent {qs : List Queued} {c : Client} (h : ((qs.forM send).exec c).1 = .ok ()) :
    c.Sent ((qs.forM send).exec c).2 qs := by
  induction qs generalizing c with
  | nil => exact .refl c
  | cons q qs ih =>
    have hsend := send_sent (q := q) (c := c)
    rw [Op.forM_cons, Op.exec_bind] at h ⊢
    rcases hq : (send q).exec c with ⟨e | _, c'⟩
    · rw [hq] at h
      cases h
    · rw [hq] at h hsend
      exact (hsend rfl).trans (ih h)

theorem writeOutbox_sent (c : Client) : c.Sent (writeOutbox.exec c).2 [] := by
  rw [writeOutbox, Op.exec_get_bind]
  rcases writeLoop c.stream.writes c.outbox c.stream.sent with ⟨ok, writes, outbox, sent⟩
  dsimp only
  rw [Op.exec_modify_bind]
  cases ok with
  | true => exact { Sent.refl c with }
  | false => exact { Sent.refl c with }

theorem serve_sent {frames : List Queued} {c : Client} (h : ((serve frames).exec c).1 = .ok ()) :
    c.Sent ((serve frames).exec c).2 (c.due frames) := by
  rw [serve, Op.exec_get_bind] at h ⊢
  rw [Op.exec_bind, Op.exec_mapError] at h ⊢
  rcases hsend : ((c.due frames).forM send).exec c with ⟨e | _, c'⟩
  · rw [hsend] at h
    cases h
  · have hok : (((c.due frames).forM send).exec c).1 = .ok () := by rw [hsend]
    have hsent := forM_send_sent hok
    rw [hsend] at hsent
    have hboth := hsent.trans (writeOutbox_sent c')
    rw [List.append_nil] at hboth
    exact hboth

theorem serve_role (frames : List Queued) (c : Client) :
    ((serve frames).exec c).2.leaf = c.leaf ∧ ((serve frames).exec c).2.observe = c.observe := by
  let I (c' : Client) : Prop := c'.leaf = c.leaf ∧ c'.observe = c.observe
  have hsend : ∀ q, Op.Keeps I (send q) :=
    fun q => Op.Keeps.bind (Op.Keeps.lift _) fun _ => Op.Keeps.modify fun c' h => h
  have hserve : Op.Keeps I (serve frames) := by
    refine Op.Keeps.bind Op.Keeps.get fun c₁ => ?_
    refine Op.Keeps.bind (Op.Keeps.mapError _ (Op.Keeps.forM hsend _)) fun _ => ?_
    refine Op.Keeps.bind Op.Keeps.get fun c₂ => ?_
    refine Op.Keeps.bind (Op.Keeps.modify fun c' h => h) fun _ => ?_
    exact Op.Keeps.ite (fun _ => Op.Keeps.throw _) fun _ => Op.Keeps.pure _
  exact hserve c ⟨rfl, rfl⟩

theorem liveChunk_of_le {credit n : Nat} (h : n ≤ credit) : liveChunk credit n = some n := by
  unfold liveChunk
  split
  case isTrue hn => rw [hn]
  case isFalse => rw [if_neg (Nat.not_lt.mpr h)]

theorem liveChunk_of_lt {credit n : Nat} (h : credit < n) : liveChunk credit n = none := by
  rw [liveChunk, if_neg (Nat.ne_of_gt (Nat.lt_of_le_of_lt (Nat.zero_le _) h)), if_pos h]

/-- A live chunk as the frame a client's protocol has for it. -/
def liveFrame (c : Client) (offset : Nat) (bytes : List UInt8) : Frame :=
  if c.protocol = protocol2 then .delta (UInt64.ofNat (offset - bytes.length)) bytes
  else .data bytes

theorem exec_fanout (id : SessionId) (offset start : Nat) (bytes : List UInt8) (c : Client) :
    (fanout id offset start bytes).exec c =
      if c.leaf = some id ∧ bytes.length ≤ c.credit then
        (send ⟨c.liveFrame offset bytes, .live start⟩).exec (c.spend bytes.length)
      else (.ok (), c) := by
  rw [fanout, Op.exec_get_bind]
  by_cases hleaf : c.leaf = some id
  · rw [if_neg (not_not_intro hleaf)]
    by_cases hlen : bytes.length ≤ c.credit
    · rw [if_pos ⟨hleaf, hlen⟩, liveChunk_of_le hlen]
      dsimp only
      rw [Op.exec_modify_bind, List.take_length]
      rfl
    · rw [if_neg fun h => hlen h.2, liveChunk_of_lt (Nat.lt_of_not_le hlen)]
      rfl
  · rw [if_pos hleaf, if_neg fun h => hleaf h.1]
    rfl

end Client

/-- The least credit among the protocol-1 writers of a leaf. -/
def protocol1WriterCredit (clients : List Client) (id : SessionId) : Option Nat :=
  ((clients.filter fun c => c.isWriter id && c.protocol ≠ protocol2).map Client.credit).min?

end Rill.Daemon
