import Mathlib.Logic.Function.Iterate
import Rill.Daemon.Outbox

/-!
# The control plane's pipes

A pipe carries the bytes of each of its two sides to the other. It goes with
whatever it still carries when a turn of it fails. `delivers_iff` says when that
loses nothing.
-/

namespace Rill.Daemon

open Lib

namespace Proxy

inductive Error
  | peerRefused
  | io
  deriving DecidableEq, Repr

/-- `taken` is what was read from the side, and `failed` that a read or a write of it came
to an error; the proxy looks at neither. -/
structure Side where
  stream : Stream
  taken : List UInt8
  failed : Bool
  deriving DecidableEq, Repr

structure Pipe where
  a : Side
  b : Side
  aToB : List UInt8
  bToA : List UInt8
  deriving DecidableEq, Repr

namespace Side

def new (reads : List Read) (writes : List Write) : Side := ⟨⟨reads, writes, []⟩, [], false⟩

/-- What the next read comes to, with room for `n` bytes. -/
def next (s : Side) (n : Nat) : Read :=
  match s.stream.reads.headD .wouldBlock with
  | .data bytes => if (bytes.take n).isEmpty then .eof else .data (bytes.take n)
  | other => other

def skip (s : Side) : Side := { s with stream := { s.stream with reads := s.stream.reads.tail } }

end Side

def bufLen : Nat := 8192

/-- `read_into` on a side and the outbox towards the other. -/
def readInto : Op (Side × List UInt8) Error Unit :=
  Op.of fun (side, outbox) =>
    match side.next bufLen with
    | .data bytes => (.ok (), ({ side.skip with taken := side.taken ++ bytes }, outbox ++ bytes))
    | .eof => (.error .peerRefused, (side.skip, outbox))
    | .wouldBlock => (.ok (), (side.skip, outbox))
    | .failed => (.error .io, ({ side.skip with failed := true }, outbox))

def writeOutbox : Op (Side × List UInt8) Error Unit :=
  Op.of fun (side, outbox) =>
    let (ok, writes, outbox, sent) := Client.writeLoop side.stream.writes outbox side.stream.sent
    (if ok then .ok () else .error .io,
      ({ side with stream := { side.stream with writes, sent }, failed := side.failed || !ok }, outbox))

namespace Pipe

def new (a b : Side) : Pipe := ⟨a, b, [], []⟩

def readA : Op Pipe Error Unit :=
  Op.on (fun p => (p.a, p.aToB)) (fun (s, q) p => { p with a := s, aToB := q }) readInto

def readB : Op Pipe Error Unit :=
  Op.on (fun p => (p.b, p.bToA)) (fun (s, q) p => { p with b := s, bToA := q }) readInto

def writeB : Op Pipe Error Unit :=
  Op.on (fun p => (p.b, p.aToB)) (fun (s, q) p => { p with b := s, aToB := q }) writeOutbox

def writeA : Op Pipe Error Unit :=
  Op.on (fun p => (p.a, p.bToA)) (fun (s, q) p => { p with a := s, bToA := q }) writeOutbox

def splice : Op Pipe Error Unit := do
  readA
  readB
  writeB
  writeA

def contentRequestPipeMax : Nat := 64 * 1024 + 17

def contentResponsePipeMax : Nat := 1024 * 1024

def spliceContent : Op Pipe Error Unit := do
  readA
  readB
  let p ← get
  if p.aToB.length > contentRequestPipeMax || p.bToA.length > contentResponsePipeMax then
    throw .peerRefused
  writeB
  writeA

end Pipe

/-- The pipe, unless it fails and goes. -/
def survivor (m : Op Pipe Error Unit) (p : Pipe) : Option Pipe :=
  match m.exec p with
  | (.ok _, p) => some p
  | (.error _, _) => none

/-- One turn of a loop of the control plane over its pipes. -/
def turn (splice : Op Pipe Error Unit) (pipes : List Pipe) : List Pipe :=
  pipes.filterMap (survivor splice)

/-- The turns that one pipe lives through. -/
def turns (splice : Op Pipe Error Unit) : Nat → Op Pipe Error Unit
  | 0 => pure ()
  | k + 1 => do
    turns splice k
    splice

/-- What was taken from each side has been written to the other, unless that one failed. -/
def Delivered (p : Pipe) : Prop :=
  (p.b.failed = false → p.b.stream.sent = p.a.taken) ∧
    (p.a.failed = false → p.a.stream.sent = p.b.taken)

-- ---------------------------------------------------------------------------
-- What is taken is sent or queued
-- ---------------------------------------------------------------------------

structure Kept (p : Pipe) : Prop where
  aToB : p.b.stream.sent ++ p.aToB = p.a.taken
  bToA : p.a.stream.sent ++ p.bToA = p.b.taken

theorem delivered_iff {p : Pipe} (h : Kept p) :
    Delivered p ↔ (p.b.failed = false → p.aToB = []) ∧ (p.a.failed = false → p.bToA = []) := by
  have hall : ∀ {sent queued taken : List UInt8}, sent ++ queued = taken →
      (sent = taken ↔ queued = []) := by
    rintro sent queued _ rfl
    simp
  rw [Delivered, hall h.aToB, hall h.bToA]

def bytesOf : Read → List UInt8
  | .data bytes => bytes
  | .eof | .wouldBlock | .failed => []

def ends : Read → Bool
  | .eof | .failed => true
  | .data _ | .wouldBlock => false

def outcome : Read → Except Error Unit
  | .eof => .error .peerRefused
  | .failed => .error .io
  | .data _ | .wouldBlock => .ok ()

def accepts : List Write → Nat → Nat
  | [], _ => 0
  | write :: rest, n =>
    if n = 0 then 0
    else match write with
      | .accept k => if k = 0 then 0 else min k n + accepts rest (n - k)
      | .wouldBlock | .failed => 0

@[simp] theorem accepts_zero (writes : List Write) : accepts writes 0 = 0 := by
  cases writes with
  | nil => rfl
  | cons write rest => rfl

theorem writeLoop_accepts (writes : List Write) (outbox sent : List UInt8) :
    (Client.writeLoop writes outbox sent).2.2 =
      (outbox.drop (accepts writes outbox.length),
        sent ++ outbox.take (accepts writes outbox.length)) := by
  induction writes generalizing outbox sent with
  | nil => simp [Client.writeLoop, accepts]
  | cons write rest ih =>
    unfold Client.writeLoop accepts
    cases outbox with
    | nil => simp
    | cons b outbox =>
      rw [if_neg (by simp), if_neg (by simp)]
      cases write with
      | accept k =>
        by_cases hk : k = 0
        · simp [hk]
        · dsimp only
          rw [if_neg hk, if_neg hk, ih, List.length_drop]
          generalize b :: outbox = outbox
          rcases Nat.le_total k outbox.length with hle | hge
          · rw [Nat.min_eq_left hle, List.drop_drop, List.append_assoc, List.take_add]
          · rw [Nat.min_eq_right hge, Nat.sub_eq_zero_of_le hge, accepts_zero]
            simp [List.take_of_length_le hge, List.drop_eq_nil_of_le hge]
      | wouldBlock => simp
      | failed => simp

namespace Side

def read (s : Side) : Side :=
  { s.skip with
    taken := s.taken ++ bytesOf (s.next bufLen)
    failed := s.failed || s.next bufLen = .failed }

def offered (s : Side) (q : List UInt8) : Side :=
  { s with
    stream := { s.stream with
      writes := (Client.writeLoop s.stream.writes q s.stream.sent).2.1
      sent := s.stream.sent ++ q.take (accepts s.stream.writes q.length) }
    failed := s.failed || Client.breaks s.stream.writes q.length }

end Side

theorem exec_readInto (s : Side) (q : List UInt8) :
    readInto.exec (s, q) =
      (outcome (s.next bufLen), (s.read, q ++ bytesOf (s.next bufLen))) := by
  rw [readInto, Op.exec_of]
  dsimp only
  unfold Side.read
  cases s.next bufLen with
  | data bytes => simp [bytesOf, outcome, Side.skip]
  | eof => simp [bytesOf, outcome, Side.skip]
  | wouldBlock => simp [bytesOf, outcome, Side.skip]
  | failed => simp [bytesOf, outcome, Side.skip]

theorem exec_writeOutbox (s : Side) (q : List UInt8) :
    writeOutbox.exec (s, q) =
      (if Client.breaks s.stream.writes q.length then .error .io else .ok (),
        (s.offered q, q.drop (accepts s.stream.writes q.length))) := by
  have hbreaks := Client.writeLoop_breaks s.stream.writes q s.stream.sent
  have haccepts := writeLoop_accepts s.stream.writes q s.stream.sent
  rw [writeOutbox, Op.exec_of, Side.offered]
  dsimp only
  generalize Client.writeLoop s.stream.writes q s.stream.sent = run at hbreaks haccepts ⊢
  obtain ⟨ok, writes, outbox, sent⟩ := run
  obtain rfl : ok = _ := hbreaks
  obtain ⟨rfl, rfl⟩ := Prod.mk.inj haccepts
  cases Client.breaks s.stream.writes q.length with
  | false => simp
  | true => simp

namespace Pipe

/-- The pipe after each part of a splice. -/
def inA (p : Pipe) : Pipe :=
  { p with a := p.a.read, aToB := p.aToB ++ bytesOf (p.a.next bufLen) }

def inB (p : Pipe) : Pipe :=
  { p with b := p.b.read, bToA := p.bToA ++ bytesOf (p.b.next bufLen) }

def outB (p : Pipe) : Pipe :=
  { p with b := p.b.offered p.aToB, aToB := p.aToB.drop (accepts p.b.stream.writes p.aToB.length) }

def outA (p : Pipe) : Pipe :=
  { p with a := p.a.offered p.bToA, bToA := p.bToA.drop (accepts p.a.stream.writes p.bToA.length) }

theorem exec_readA (p : Pipe) : readA.exec p = (outcome (p.a.next bufLen), p.inA) := by
  rw [readA, Op.exec_on, exec_readInto]
  rfl

theorem exec_readB (p : Pipe) : readB.exec p = (outcome (p.b.next bufLen), p.inB) := by
  rw [readB, Op.exec_on, exec_readInto]
  rfl

theorem exec_writeB (p : Pipe) :
    writeB.exec p =
      (if Client.breaks p.b.stream.writes p.aToB.length then .error .io else .ok (), p.outB) := by
  rw [writeB, Op.exec_on, exec_writeOutbox]
  rfl

theorem exec_writeA (p : Pipe) :
    writeA.exec p =
      (if Client.breaks p.a.stream.writes p.bToA.length then .error .io else .ok (), p.outA) := by
  rw [writeA, Op.exec_on, exec_writeOutbox]
  rfl

end Pipe

namespace Kept

theorem inA {p : Pipe} (h : Kept p) : Kept p.inA :=
  ⟨by rw [Pipe.inA, ← List.append_assoc, h.aToB]; rfl, h.bToA⟩

theorem inB {p : Pipe} (h : Kept p) : Kept p.inB :=
  ⟨h.aToB, by rw [Pipe.inB, ← List.append_assoc, h.bToA]; rfl⟩

theorem outB {p : Pipe} (h : Kept p) : Kept p.outB := by
  refine ⟨Eq.trans ?_ h.aToB, h.bToA⟩
  simp [Pipe.outB, Side.offered]

theorem outA {p : Pipe} (h : Kept p) : Kept p.outA := by
  refine ⟨h.aToB, Eq.trans ?_ h.bToA⟩
  simp [Pipe.outA, Side.offered]

end Kept

-- ---------------------------------------------------------------------------
-- The turn that ends a pipe
-- ---------------------------------------------------------------------------

/-- A splice that is refused when the queues are full. -/
def spliceUnder (full : Nat → Nat → Bool) : Op Pipe Error Unit := do
  Pipe.readA
  Pipe.readB
  let p ← get
  if full p.aToB.length p.bToA.length then throw .peerRefused
  Pipe.writeB
  Pipe.writeA

def contentOver (request response : Nat) : Bool :=
  request > Pipe.contentRequestPipeMax || response > Pipe.contentResponsePipeMax

theorem splice_eq : Pipe.splice = spliceUnder fun _ _ => false := rfl

theorem spliceContent_eq : Pipe.spliceContent = spliceUnder contentOver := rfl

namespace Pipe

def forB (p : Pipe) : List UInt8 := p.aToB ++ bytesOf (p.a.next bufLen)

def forA (p : Pipe) : List UInt8 := p.bToA ++ bytesOf (p.b.next bufLen)

/-- Neither read ends the pipe. -/
def goesOn (p : Pipe) : Bool := !ends (p.a.next bufLen) && !ends (p.b.next bufLen)

end Pipe

/-- If the next turn is the last of the pipe, nothing is then queued for a side that has
not failed. -/
structure Clear (full : Nat → Nat → Bool) (p : Pipe) : Prop where
  eofA : p.a.next bufLen = .eof → p.aToB = [] ∧ p.bToA = []
  failedA : p.a.next bufLen = .failed → p.aToB = []
  eofB : ends (p.a.next bufLen) = false → p.b.next bufLen = .eof → p.forB = [] ∧ p.bToA = []
  failedB : ends (p.a.next bufLen) = false → p.b.next bufLen = .failed → p.bToA = []
  fits : p.goesOn = true → full p.forB.length p.forA.length = false
  writeB : p.goesOn = true → Client.breaks p.b.stream.writes p.forB.length = true → p.forA = []
  writeA : p.goesOn = true → Client.breaks p.b.stream.writes p.forB.length = false →
    Client.breaks p.a.stream.writes p.forA.length = true →
      p.forB.length ≤ accepts p.b.stream.writes p.forB.length

structure Sound (p : Pipe) : Prop extends Kept p where
  a : p.a.failed = false
  b : p.b.failed = false

theorem forall_error {m : Except Error Unit × Pipe} {x : Error} {q : Pipe} (h : m = (.error x, q)) :
    (∀ e p', m = (.error e, p') → Delivered p') ↔ Delivered q := by
  subst h
  constructor
  · exact fun hall => hall x q rfl
  · rintro hq e p' ⟨⟩
    exact hq

theorem forall_ok {m : Except Error Unit × Pipe} {q : Pipe} (h : m = (.ok (), q)) :
    ∀ e p', m = (.error e, p') → Delivered p' := by
  subst h
  rintro e p' ⟨⟩

theorem outcome_of_not_ends {r : Read} (h : ends r = false) : outcome r = .ok () := by
  cases r with
  | data bytes => rfl
  | wouldBlock => rfl
  | eof => cases h
  | failed => cases h

theorem ends_cases (r : Read) : r = .eof ∨ r = .failed ∨ ends r = false := by
  cases r with
  | data bytes => exact .inr (.inr rfl)
  | wouldBlock => exact .inr (.inr rfl)
  | eof => exact .inl rfl
  | failed => exact .inr (.inl rfl)

theorem ne_of_not_ends {r : Read} (h : ends r = false) : r ≠ .eof ∧ r ≠ .failed := by
  constructor
  · rintro rfl
    cases h
  · rintro rfl
    cases h

theorem exec_readA_ends (full : Nat → Nat → Bool) {p : Pipe} {x : Error}
    (h : outcome (p.a.next bufLen) = .error x) :
    (spliceUnder full).exec p = (.error x, p.inA) :=
  Op.exec_bind_error (by rw [Pipe.exec_readA, h]) _

theorem exec_readB_ends (full : Nat → Nat → Bool) {p : Pipe} {x : Error}
    (ha : ends (p.a.next bufLen) = false) (h : outcome (p.b.next bufLen) = .error x) :
    (spliceUnder full).exec p = (.error x, p.inA.inB) := by
  have hreadA : Pipe.readA.exec p = (.ok (), p.inA) := by
    rw [Pipe.exec_readA, outcome_of_not_ends ha]
  have hreadB : Pipe.readB.exec p.inA = (.error x, p.inA.inB) := by
    rw [Pipe.exec_readB]
    exact congrArg (·, p.inA.inB) h
  rw [spliceUnder, Op.exec_bind_ok hreadA, Op.exec_bind_error hreadB]

theorem exec_goesOn (full : Nat → Nat → Bool) {p : Pipe} (h : p.goesOn = true) :
    (spliceUnder full).exec p =
      if full p.forB.length p.forA.length then (.error .peerRefused, p.inA.inB)
      else (Pipe.writeB >>= fun _ => Pipe.writeA).exec p.inA.inB := by
  rw [Pipe.goesOn, Bool.and_eq_true, Bool.not_eq_true', Bool.not_eq_true'] at h
  have hreadA : Pipe.readA.exec p = (.ok (), p.inA) := by
    rw [Pipe.exec_readA, outcome_of_not_ends h.1]
  have hreadB : Pipe.readB.exec p.inA = (.ok (), p.inA.inB) := by
    rw [Pipe.exec_readB]
    exact congrArg (·, p.inA.inB) (outcome_of_not_ends h.2)
  rw [spliceUnder, Op.exec_bind_ok hreadA, Op.exec_bind_ok hreadB, Op.exec_get_bind]
  have hfull0 : full p.inA.inB.aToB.length p.inA.inB.bToA.length =
      full p.forB.length p.forA.length := rfl
  rw [hfull0]
  split
  case isTrue => rfl
  case isFalse => rfl

theorem Sound.reads {p : Pipe} (h : Sound p) (hgo : p.goesOn = true) : Sound p.inA.inB := by
  rw [Pipe.goesOn, Bool.and_eq_true, Bool.not_eq_true', Bool.not_eq_true'] at hgo
  refine ⟨h.toKept.inA.inB, ?_, ?_⟩
  · have hfailed : p.inA.inB.a.failed = (p.a.failed || p.a.next bufLen = .failed) := rfl
    rw [hfailed, h.a, decide_eq_false (ne_of_not_ends hgo.1).2]
    rfl
  · have hfailed : p.inA.inB.b.failed = (p.b.failed || p.b.next bufLen = .failed) := rfl
    rw [hfailed, h.b, decide_eq_false (ne_of_not_ends hgo.2).2]
    rfl

/-- A write that fails excuses what is queued for its own side alone. -/
theorem delivered_iff_writes {p : Pipe} (h : Sound p) :
    (∀ e p', (Pipe.writeB >>= fun _ => Pipe.writeA).exec p = (.error e, p') → Delivered p') ↔
      (Client.breaks p.b.stream.writes p.aToB.length = true → p.bToA = []) ∧
        (Client.breaks p.b.stream.writes p.aToB.length = false →
          Client.breaks p.a.stream.writes p.bToA.length = true →
            p.aToB.length ≤ accepts p.b.stream.writes p.aToB.length) := by
  have hrunB := Pipe.exec_writeB p
  cases hb : Client.breaks p.b.stream.writes p.aToB.length with
  | true =>
    rw [hb, if_pos rfl] at hrunB
    rw [forall_error (Op.exec_bind_error hrunB _), delivered_iff h.toKept.outB]
    simp [Pipe.outB, Side.offered, hb, h.a]
  | false =>
    rw [hb, if_neg Bool.false_ne_true] at hrunB
    rw [Op.exec_bind_ok hrunB]
    have hrunA : Pipe.writeA.exec p.outB =
        (if Client.breaks p.a.stream.writes p.bToA.length then .error .io else .ok (), p.outB.outA) :=
      Pipe.exec_writeA p.outB
    cases ha : Client.breaks p.a.stream.writes p.bToA.length with
    | true =>
      rw [ha, if_pos rfl] at hrunA
      rw [forall_error hrunA, delivered_iff h.toKept.outB.outA]
      simp [Pipe.outA, Pipe.outB, Side.offered, hb, ha, h.b]
    | false =>
      rw [ha, if_neg Bool.false_ne_true] at hrunA
      exact iff_of_true (forall_ok hrunA) ⟨nofun, nofun⟩

theorem delivered_iff_goesOn {full : Nat → Nat → Bool} (hfull0 : full 0 0 = false) {p : Pipe}
    (h : Sound p) (hgo : p.goesOn = true) :
    (∀ e p', (spliceUnder full).exec p = (.error e, p') → Delivered p') ↔
      full p.forB.length p.forA.length = false ∧
        (Client.breaks p.b.stream.writes p.forB.length = true → p.forA = []) ∧
        (Client.breaks p.b.stream.writes p.forB.length = false →
          Client.breaks p.a.stream.writes p.forA.length = true →
            p.forB.length ≤ accepts p.b.stream.writes p.forB.length) := by
  have hsound := h.reads hgo
  rw [exec_goesOn full hgo]
  cases hfull : full p.forB.length p.forA.length with
  | false =>
    rw [if_neg Bool.false_ne_true]
    exact (delivered_iff_writes hsound).trans ⟨fun hwrites => ⟨rfl, hwrites⟩, fun hall => hall.2⟩
  | true =>
    rw [if_pos rfl, forall_error rfl, delivered_iff hsound.toKept]
    refine iff_of_false (fun hnone => ?_) (fun hno => Bool.noConfusion hno.1)
    have hB : p.forB = [] := hnone.1 hsound.b
    have hA : p.forA = [] := hnone.2 hsound.a
    rw [hA, hB, List.length_nil, hfull0] at hfull
    cases hfull

theorem clear_of_endsA {full : Nat → Nat → Bool} {p : Pipe} (hends : ends (p.a.next bufLen) = true)
    (heof : p.a.next bufLen = .eof → p.aToB = [] ∧ p.bToA = [])
    (hfailed : p.a.next bufLen = .failed → p.aToB = []) : Clear full p := by
  have hno : p.goesOn ≠ true := by simp [Pipe.goesOn, hends]
  have hnot : ends (p.a.next bufLen) ≠ false := by simp [hends]
  exact ⟨heof, hfailed, fun h => absurd h hnot, fun h => absurd h hnot, fun h => absurd h hno,
    fun h => absurd h hno, fun h => absurd h hno⟩

theorem clear_of_endsB {full : Nat → Nat → Bool} {p : Pipe} (ha : ends (p.a.next bufLen) = false)
    (hends : ends (p.b.next bufLen) = true)
    (heof : p.b.next bufLen = .eof → p.forB = [] ∧ p.bToA = [])
    (hfailed : p.b.next bufLen = .failed → p.bToA = []) : Clear full p := by
  have hno : p.goesOn ≠ true := by simp [Pipe.goesOn, hends]
  have hne := ne_of_not_ends ha
  exact ⟨fun h => absurd h hne.1, fun h => absurd h hne.2, fun _ => heof, fun _ => hfailed,
    fun h => absurd h hno, fun h => absurd h hno, fun h => absurd h hno⟩

theorem clear_iff_endsA {full : Nat → Nat → Bool} {p : Pipe} (h : Sound p)
    (hends : ends (p.a.next bufLen) = true) :
    (∀ e p', (spliceUnder full).exec p = (.error e, p') → Delivered p') ↔ Clear full p := by
  have hkept := h.toKept.inA
  rcases ends_cases (p.a.next bufLen) with ha | ha | ha
  · rw [forall_error (exec_readA_ends full (by rw [ha]; rfl)), delivered_iff hkept]
    have hqueues : (p.inA.b.failed = false → p.inA.aToB = []) ∧
        (p.inA.a.failed = false → p.inA.bToA = []) ↔ p.aToB = [] ∧ p.bToA = [] := by
      simp [Pipe.inA, Side.read, Side.skip, ha, bytesOf, h.a, h.b]
    rw [hqueues]
    exact ⟨fun hempty => clear_of_endsA hends (fun _ => hempty) fun _ => hempty.1,
      fun hclear => hclear.eofA ha⟩
  · rw [forall_error (exec_readA_ends full (by rw [ha]; rfl)), delivered_iff hkept]
    have hqueues : (p.inA.b.failed = false → p.inA.aToB = []) ∧
        (p.inA.a.failed = false → p.inA.bToA = []) ↔ p.aToB = [] := by
      simp [Pipe.inA, Side.read, Side.skip, ha, bytesOf, h.b]
    rw [hqueues]
    refine ⟨fun hempty => clear_of_endsA hends (fun heof => ?_) fun _ => hempty,
      fun hclear => hclear.failedA ha⟩
    cases ha.symm.trans heof
  · cases hends.symm.trans ha

theorem clear_iff_endsB {full : Nat → Nat → Bool} {p : Pipe} (h : Sound p)
    (ha : ends (p.a.next bufLen) = false) (hends : ends (p.b.next bufLen) = true) :
    (∀ e p', (spliceUnder full).exec p = (.error e, p') → Delivered p') ↔ Clear full p := by
  have hkept := h.toKept.inA.inB
  have hne := ne_of_not_ends ha
  rcases ends_cases (p.b.next bufLen) with hb | hb | hb
  · rw [forall_error (exec_readB_ends full ha (by rw [hb]; rfl)), delivered_iff hkept]
    have hqueues : (p.inA.inB.b.failed = false → p.inA.inB.aToB = []) ∧
        (p.inA.inB.a.failed = false → p.inA.inB.bToA = []) ↔ p.forB = [] ∧ p.bToA = [] := by
      simp [Pipe.inA, Pipe.inB, Pipe.forB, Side.read, Side.skip, hb, hne.2, bytesOf, h.a, h.b]
    rw [hqueues]
    exact ⟨fun hempty => clear_of_endsB ha hends (fun _ => hempty) fun _ => hempty.2,
      fun hclear => hclear.eofB ha hb⟩
  · rw [forall_error (exec_readB_ends full ha (by rw [hb]; rfl)), delivered_iff hkept]
    have hqueues : (p.inA.inB.b.failed = false → p.inA.inB.aToB = []) ∧
        (p.inA.inB.a.failed = false → p.inA.inB.bToA = []) ↔ p.bToA = [] := by
      simp [Pipe.inA, Pipe.inB, Side.read, Side.skip, hb, hne.2, bytesOf, h.a]
    rw [hqueues]
    refine ⟨fun hempty => clear_of_endsB ha hends (fun heof => ?_) fun _ => hempty,
      fun hclear => hclear.failedB ha hb⟩
    cases hb.symm.trans heof
  · cases hends.symm.trans hb

theorem clear_iff {full : Nat → Nat → Bool} (hfull0 : full 0 0 = false) {p : Pipe} (h : Sound p) :
    (∀ e p', (spliceUnder full).exec p = (.error e, p') → Delivered p') ↔ Clear full p := by
  cases ha : ends (p.a.next bufLen) with
  | true => exact clear_iff_endsA h ha
  | false =>
    cases hb : ends (p.b.next bufLen) with
    | true => exact clear_iff_endsB h ha hb
    | false =>
      have hgo : p.goesOn = true := by rw [Pipe.goesOn, ha, hb]; rfl
      have hneA := ne_of_not_ends ha
      have hneB := ne_of_not_ends hb
      rw [delivered_iff_goesOn hfull0 h hgo]
      constructor
      · rintro ⟨hfits, hwriteB, hwriteA⟩
        exact ⟨fun heof => absurd heof hneA.1, fun hfailed => absurd hfailed hneA.2,
          fun _ heof => absurd heof hneB.1, fun _ hfailed => absurd hfailed hneB.2,
          fun _ => hfits, fun _ => hwriteB, fun _ => hwriteA⟩
      · exact fun hclear => ⟨hclear.fits hgo, hclear.writeB hgo, hclear.writeA hgo⟩

-- ---------------------------------------------------------------------------
-- Whole lives
-- ---------------------------------------------------------------------------

theorem not_ends_of_outcome {r : Read} (h : outcome r = .ok ()) : ends r = false := by
  rcases ends_cases r with rfl | rfl | hends
  · cases h
  · cases h
  · exact hends

theorem not_breaks_of_ok {b : Bool} (h : (if b then .error .io else .ok () : Except Error Unit) = .ok ()) :
    b = false := by
  cases b with
  | false => rfl
  | true => cases h

theorem sound_spliceUnder {full : Nat → Nat → Bool} {p q : Pipe} (h : Sound p)
    (hrun : (spliceUnder full).exec p = (.ok (), q)) : Sound q := by
  have hgo : p.goesOn = true := by
    obtain ⟨_, _, hA, hrest⟩ := Op.exec_bind_eq_ok.mp hrun
    rw [Pipe.exec_readA] at hA
    obtain ⟨hokA, rfl⟩ := Prod.mk.inj hA
    obtain ⟨_, _, hB, -⟩ := Op.exec_bind_eq_ok.mp hrest
    rw [Pipe.exec_readB] at hB
    obtain ⟨hokB, -⟩ := Prod.mk.inj hB
    have hendsB : ends (p.b.next bufLen) = false := not_ends_of_outcome hokB
    rw [Pipe.goesOn, not_ends_of_outcome hokA, hendsB]
    rfl
  have hsound := h.reads hgo
  rw [exec_goesOn full hgo] at hrun
  generalize p.inA.inB = p₂ at hsound hrun
  split at hrun
  case isTrue => cases hrun
  case isFalse =>
    obtain ⟨_, _, hB, hA⟩ := Op.exec_bind_eq_ok.mp hrun
    rw [Pipe.exec_writeB] at hB
    obtain ⟨hokB, rfl⟩ := Prod.mk.inj hB
    rw [Pipe.exec_writeA] at hA
    obtain ⟨hokA, rfl⟩ := Prod.mk.inj hA
    refine ⟨hsound.toKept.outB.outA, ?_, ?_⟩
    · have hfailed : p₂.outB.outA.a.failed =
          (p₂.a.failed || Client.breaks p₂.a.stream.writes p₂.bToA.length) := rfl
      rw [hfailed, hsound.a]
      exact not_breaks_of_ok hokA
    · have hfailed : p₂.outB.outA.b.failed =
          (p₂.b.failed || Client.breaks p₂.b.stream.writes p₂.aToB.length) := rfl
      rw [hfailed, hsound.b]
      exact not_breaks_of_ok hokB

theorem sound_turns {full : Nat → Nat → Bool} {p q : Pipe} (h : Sound p) {k : Nat}
    (hrun : (turns (spliceUnder full) k).exec p = (.ok (), q)) : Sound q := by
  induction k generalizing q with
  | zero =>
    obtain ⟨-, rfl⟩ := Prod.mk.inj hrun
    exact h
  | succ k ih =>
    obtain ⟨_, r, hturns, hlast⟩ := Op.exec_bind_eq_ok.mp hrun
    exact sound_spliceUnder (ih hturns) hlast

theorem sound_new (readsA readsB : List Read) (writesA writesB : List Write) :
    Sound (.new (.new readsA writesA) (.new readsB writesB)) := ⟨⟨rfl, rfl⟩, rfl, rfl⟩

theorem survivor_bind (m n : Op Pipe Error Unit) (p : Pipe) :
    survivor (m >>= fun _ => n) p = (survivor m p).bind (survivor n) := by
  unfold survivor
  rw [Op.exec_bind]
  rcases m.exec p with ⟨e | _, q⟩
  · rfl
  · rfl

/-- The loop takes each pipe through turns of its own. -/
theorem turn_iterate (splice : Op Pipe Error Unit) (pipes : List Pipe) (k : Nat) :
    (turn splice)^[k] pipes = pipes.filterMap (survivor (turns splice k)) := by
  induction k with
  | zero => exact (List.filterMap_some).symm
  | succ k ih =>
    rw [Function.iterate_succ_apply', ih, turn, List.filterMap_filterMap]
    exact List.filterMap_congr fun p _ => (survivor_bind (turns splice k) splice p).symm

/-- `splice` loses nothing of a pipe whose turns are all clear, and only of such a pipe. -/
theorem lives_iff {full : Nat → Nat → Bool} (hfull0 : full 0 0 = false) {start : Pipe}
    (h : Sound start) :
    (∀ k p e p', (turns (spliceUnder full) k).exec start = (.ok (), p) →
      (spliceUnder full).exec p = (.error e, p') → Delivered p') ↔
    ∀ k p, (turns (spliceUnder full) k).exec start = (.ok (), p) → Clear full p := by
  constructor
  · exact fun hall k p hrun => (clear_iff hfull0 (sound_turns h hrun)).mp fun e p' => hall k p e p' hrun
  · exact fun hall k p e p' hrun => (clear_iff hfull0 (sound_turns h hrun)).mpr (hall k p hrun) e p'

/-- Whatever the two sides send, accept and end with: no turn of a pipe loses bytes that it
took exactly where every turn of its life is clear. -/
theorem pipe_delivers_iff (readsA readsB : List Read) (writesA writesB : List Write) :
    ((∀ k p e p', (turns Pipe.splice k).exec (.new (.new readsA writesA) (.new readsB writesB)) =
        (.ok (), p) → Pipe.splice.exec p = (.error e, p') → Delivered p') ↔
      ∀ k p, (turns Pipe.splice k).exec (.new (.new readsA writesA) (.new readsB writesB)) =
        (.ok (), p) → Clear (fun _ _ => false) p) ∧
    ((∀ k p e p', (turns Pipe.spliceContent k).exec
        (.new (.new readsA writesA) (.new readsB writesB)) = (.ok (), p) →
          Pipe.spliceContent.exec p = (.error e, p') → Delivered p') ↔
      ∀ k p, (turns Pipe.spliceContent k).exec (.new (.new readsA writesA) (.new readsB writesB)) =
        (.ok (), p) → Clear contentOver p) := by
  have hnew := sound_new readsA readsB writesA writesB
  rw [splice_eq, spliceContent_eq]
  exact ⟨lives_iff rfl hnew, lives_iff rfl hnew⟩

/-- The client's last bytes, when the worker's socket is full for one turn. -/
theorem pipe_drops :
    ∃ p e p', (turns Pipe.splice 1).exec
        (.new (.new [.data [104, 105], .eof] []) (.new [] [.wouldBlock])) = (.ok (), p) ∧
      Pipe.splice.exec p = (.error e, p') ∧ ¬ Delivered p' := by
  refine ⟨_, _, _, rfl, rfl, fun h => ?_⟩
  exact absurd (h.1 rfl) (by decide)

end Proxy

end Rill.Daemon
