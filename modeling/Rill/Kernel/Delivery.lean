import Rill.Kernel.Backpressure
import Rill.Kernel.History
import Rill.Kernel.Input

/-!
# Input delivered

What the PTY accepts of DATA, and where the rest is, while the system may fail
any write part of the way.
-/

namespace Rill.Kernel

open Lib Attach

-- ---------------------------------------------------------------------------
-- One write
-- ---------------------------------------------------------------------------

namespace Pty

/-- How many of `n` bytes the next write moves. -/
def moves (p : Pty) (n : Nat) : Nat :=
  match p.turn.1.fault with
  | none => n
  | some _ => p.turn.1.capped n

theorem input_turn (p : Pty) : p.turn.2.input = p.input := by
  unfold turn runChild
  dsimp only
  split <;> rfl

theorem writeAll_moves {p : Pty} (hmaster : p.master = true) (bytes : List UInt8) :
    ((writeAll bytes).exec p).2.input = p.input ++ bytes.take (p.moves bytes.length) ∧
      (((writeAll bytes).exec p).1 = .ok () → bytes.take (p.moves bytes.length) = bytes) := by
  rw [writeAll, Op.exec_get_bind]
  cases bytes with
  | nil => simp [hmaster]
  | cons b bytes =>
    rw [if_neg (by simp [hmaster]), Op.exec_bind_ok (exec_takeTurn p), moves]
    cases p.turn.1.fault with
    | none => simp [input_turn]
    | some fault =>
      refine ⟨?_, ?_⟩
      · simp [Op.exec_modify_bind, input_turn]
      · cases fault with
        | timeout => exact fun h => by cases h
        | io => exact fun h => by cases h

theorem setWinsize_input (p : Pty) (size : Winsize) : ((setWinsize size).exec p).2.input = p.input := by
  have hkeeps : Op.Keeps (fun q : Pty => q.input = p.input) (setWinsize size) := by
    refine Op.Keeps.bind Op.Keeps.get fun q => ?_
    refine Op.Keeps.ite (fun _ => Op.Keeps.throw _) fun _ => ?_
    refine Op.Keeps.bind (Op.Keeps.get_bind fun q hq => q.input_turn.trans hq) fun t => ?_
    exact Op.Keeps.guard fun _ => Op.Keeps.modify fun q hq => hq
  exact hkeeps p rfl

end Pty

namespace Session

-- ---------------------------------------------------------------------------
-- The queue between calls
-- ---------------------------------------------------------------------------

theorem exec_flushLoop_one (s : Session) (buf : List UInt8) :
    (flushLoop [buf]).exec s =
      match (Pty.writeAll buf).exec s.pty with
      | (.ok _, pty) => (.ok (), { ({ s with pendingInput := [], pty } : Session).record
          (.ptyWrite buf.length) with lastDelivery := .dispatched })
      | (.error e, pty) => (.error e, { s with pendingInput := [], pty }) := by
  rw [flushLoop, Op.exec_modify_bind, Op.exec_bind, exec_onPty]
  dsimp only
  rcases (Pty.writeAll buf).exec s.pty with ⟨e | _, pty⟩
  · rfl
  · rfl

/-- A buffer is taken off the queue whether it is written or not. -/
theorem pendingInput_flushLoop_one (s : Session) (buf : List UInt8) :
    ((flushLoop [buf]).exec s).2.pendingInput = [] := by
  rw [exec_flushLoop_one]
  rcases (Pty.writeAll buf).exec s.pty with ⟨e | _, pty⟩
  · rfl
  · rfl

theorem exec_applyData {s : Session} {m : Moment} (halive : s.childExit = none)
    (hheard : (s.expireInputLeaseIfDue m).leaseBlocksInput = false) (hqueue : s.pendingInput = [])
    (bytes : List UInt8) :
    (applyData m bytes).exec s = (flushLoop [bytes]).exec { s.expireInputLeaseIfDue m with
      lastDelivery := .pending
      pendingInput := [bytes] } := by
  have hpending : (s.expireInputLeaseIfDue m).pendingInput ++ [bytes] = [bytes] := by
    simp [expireInputLeaseIfDue, hqueue]
  rw [applyData, Op.exec_get_bind, Op.exec_guard_neg (by simp [halive]), Op.exec_modify_bind,
    Op.exec_get_bind, if_neg (by simp [hheard]), Op.exec_modify_bind, flushInput, Op.exec_get_bind,
    hpending]

theorem exec_applyResize {s : Session} {m : Moment}
    (hheard : (s.expireInputLeaseIfDue m).leaseBlocksInput = false) (hqueue : s.pendingInput = [])
    (size : Winsize) :
    ((applyResize m size).exec s).2 =
      match (Pty.setWinsize size).exec s.pty with
      | (.ok _, pty) => ({ s.expireInputLeaseIfDue m with size, pty } : Session).record (.winsize size)
      | (.error _, pty) => { s.expireInputLeaseIfDue m with size, pty } := by
  have hpending : (s.expireInputLeaseIfDue m).pendingInput = [] := hqueue
  rw [applyResize, Op.exec_modify_bind, Op.exec_get_bind, if_neg (by simp [hheard]), flushInput,
    Op.exec_bind, Op.exec_get_bind, hpending, flushLoop, Op.exec_pure]
  dsimp only
  have hpty : ({ s.expireInputLeaseIfDue m with size } : Session).pty = s.pty := rfl
  rw [Op.exec_modify_bind, Op.exec_bind, exec_onPty, hpty]
  rcases (Pty.setWinsize size).exec s.pty with ⟨e | _, pty⟩
  · rfl
  · rfl

theorem leaseBlocksInput_of_blocked {s : Session} (h : s.leaseBlocksInput = true) (m : Moment) :
    (s.expireInputLeaseIfDue m).leaseBlocksInput = true := by
  unfold leaseBlocksInput expireInputLeaseIfDue at *
  cases s.leaseDue m with
  | false => exact h
  | true => simpa using (Bool.and_eq_true_iff.mp h).1

theorem onFrame_of_blocked {s : Session} {m : Moment} (halive : s.childExit = none)
    (hblocks : (s.expireInputLeaseIfDue m).leaseBlocksInput = true) :
    (∀ bytes, ((applyData m bytes).exec s).2 = s.expireInputLeaseIfDue m) ∧
      ∀ size, ((applyResize m size).exec s).2 = s.expireInputLeaseIfDue m := by
  refine ⟨fun bytes => ?_, fun size => ?_⟩
  · rw [applyData, Op.exec_get_bind, Op.exec_guard_neg (by simp [halive]), Op.exec_modify_bind,
      Op.exec_get_bind, if_pos hblocks]
    rfl
  · rw [applyResize, Op.exec_modify_bind, Op.exec_get_bind, if_pos hblocks]
    rfl

/-- What calls of the kernel make of a new session. -/
inductive Reached : Session → Prop
  | spawn (pty : Pty) (ephemeral : Bool) (size : Winsize) : Reached (.spawn pty ephemeral size)
  | call {s : Session} (h : Reached s) (call : Call) : Reached (call.next s)
  | takeInputLease {s : Session} (h : Reached s) (m : Moment) (nonce : UInt64) :
    Reached (s.takeInputLease m nonce)
  | takeResyncHistory {s : Session} (h : Reached s) : Reached s.takeResyncHistory.2
  | reap {s : Session} (h : Reached s) (m : Moment) : Reached ((reap m).exec s).2
  | drain {s : Session} (h : Reached s) (max : Option Nat) : Reached ((drainPtyAtMost max).exec s).2
  | terminate {s : Session} (h : Reached s) : Reached (terminate.exec s).2
  | installCheckpoint {s : Session} (h : Reached s) (rec : StoredCheckpoint) :
    Reached ((installCheckpoint rec).exec s).2

def Flushed (s : Session) : Prop := s.pendingInput = []

namespace Flushed

variable {s : Session}

theorem onFrame (h : s.Flushed) (m : Moment) (f : Frame) : ((onFrame m f).exec s).2.Flushed := by
  cases f with
  | attach generation sessionId protocol observe =>
    change (s.attach m generation observe).Flushed
    unfold attach
    split
    case isTrue => exact h
    case isFalse =>
      split
      case isTrue => exact h
      case isFalse => exact h
  | resize cols rows pxW pxH =>
    change ((applyResize m ⟨cols, rows, pxW, pxH⟩).exec s).2.Flushed
    cases hblocks : (s.expireInputLeaseIfDue m).leaseBlocksInput with
    | true =>
      rw [applyResize, Op.exec_modify_bind, Op.exec_get_bind, if_pos hblocks]
      exact h
    | false =>
      rw [exec_applyResize hblocks h]
      rcases (Pty.setWinsize ⟨cols, rows, pxW, pxH⟩).exec s.pty with ⟨e | _, pty⟩
      · exact h
      · exact h
  | data bytes =>
    change ((applyData m bytes).exec s).2.Flushed
    cases hexit : s.childExit with
    | some status =>
      rw [applyData, Op.exec_get_bind, Op.exec_guard_pos (by simp [hexit])]
      exact h
    | none =>
      cases hblocks : (s.expireInputLeaseIfDue m).leaseBlocksInput with
      | true =>
        rw [(onFrame_of_blocked hexit hblocks).1]
        exact h
      | false =>
        rw [exec_applyData hexit hblocks h]
        exact pendingInput_flushLoop_one _ bytes
  | credit | exit | refused | checkpoint | delta | resyncRequest => exact h

theorem onPty {m : Op Pty Error α} : Op.Keeps Flushed (onPty m) := Op.Keeps.on fun _ h => h

theorem next (h : s.Flushed) (call : Call) : (call.next s).Flushed := by
  cases call with
  | frame m f => exact h.onFrame m f
  | detach => rfl
  | releaseObserver => exact h
  | ptyReadable =>
    have hkeeps : Op.Keeps Flushed onPtyReadable := by
      refine Op.Keeps.bind Op.Keeps.get fun s => ?_
      refine Op.Keeps.ite (fun _ => ?_) fun _ => ?_
      · exact Op.Keeps.bind (Op.Keeps.modify fun _ h => h) fun _ => Op.Keeps.pure _
      · refine Op.Keeps.bind onPty fun got => ?_
        refine Op.Keeps.ite (fun _ => Op.Keeps.pure _) fun _ => ?_
        exact Op.Keeps.bind (Op.Keeps.modify fun _ h => h) fun _ => Op.Keeps.pure _
    exact hkeeps s h

end Flushed

/-- Between calls no input is queued. -/
theorem Reached.flushed {s : Session} (h : Reached s) : s.Flushed := by
  induction h with
  | spawn => rfl
  | call _ call ih => exact ih.next call
  | takeInputLease _ _ _ ih => exact ih
  | takeResyncHistory _ ih => exact ih
  | @reap s _ m ih =>
    have hkeeps : Op.Keeps Flushed (Session.reap m) := by
      refine Op.Keeps.bind (Op.Keeps.modify fun _ h => h) fun _ => ?_
      refine Op.Keeps.bind Op.Keeps.get fun s => ?_
      refine Op.Keeps.ite (fun _ => Op.Keeps.pure _) fun _ => ?_
      refine Op.Keeps.bind Flushed.onPty fun status => ?_
      cases status with
      | none => exact Op.Keeps.pure _
      | some status => exact Op.Keeps.bind (Op.Keeps.modify fun _ h => h) fun _ => Op.Keeps.pure _
    exact hkeeps s ih
  | @drain s _ max ih =>
    have hkeeps : Op.Keeps Flushed (drainPtyAtMost max) := by
      refine Op.Keeps.bind Op.Keeps.get fun s => ?_
      refine Op.Keeps.ite (fun _ => Op.Keeps.pure _) fun _ => ?_
      refine Op.Keeps.ite (fun _ => ?_) fun _ => ?_
      · exact Op.Keeps.bind (Op.Keeps.modify fun _ h => h) fun _ => Op.Keeps.pure _
      · refine Op.Keeps.bind Flushed.onPty fun got => ?_
        refine Op.Keeps.ite (fun _ => Op.Keeps.pure _) fun _ => ?_
        exact Op.Keeps.bind (Op.Keeps.modify fun _ h => h) fun _ => Op.Keeps.pure _
    exact hkeeps s ih
  | terminate _ ih =>
    have hkeeps : Op.Keeps Flushed Session.terminate := by
      refine Op.Keeps.bind Op.Keeps.get fun s => ?_
      refine Op.Keeps.ite (fun _ => Op.Keeps.pure _) fun _ => ?_
      exact Op.Keeps.bind (Op.Keeps.modify fun _ h => h) fun _ => Flushed.onPty
    exact hkeeps _ ih
  | @installCheckpoint s _ rec ih =>
    rw [exec_installCheckpoint]
    split
    case isTrue => exact ih
    case isFalse => exact ih

-- ---------------------------------------------------------------------------
-- DATA and RESIZE
-- ---------------------------------------------------------------------------

structure Live (s : Session) : Prop where
  alive : s.childExit = none
  master : s.pty.master = true
  flushed : s.Flushed

inductive Input
  | data (m : Moment) (bytes : List UInt8)
  | resize (m : Moment) (cols rows pxW pxH : UInt16)
  deriving DecidableEq, Repr

namespace Input

def moment : Input → Moment
  | data m _ => m
  | resize m .. => m

def frame : Input → Frame
  | data _ bytes => .data bytes
  | resize _ cols rows pxW pxH => .resize cols rows pxW pxH

def payload : Input → List UInt8
  | data _ bytes => bytes
  | resize .. => []

def next (s : Session) (i : Input) : Session := ((onFrame i.moment i.frame).exec s).2

/-- The lease lets the frame through. -/
def heard (s : Session) (i : Input) : Bool := !(s.expireInputLeaseIfDue i.moment).leaseBlocksInput

/-- The bytes of the frame that are queued. -/
def queues (s : Session) (i : Input) : List UInt8 := if i.heard s then i.payload else []

/-- Those of them that the PTY accepts. -/
def accepts (s : Session) (i : Input) : List UInt8 :=
  (i.queues s).take (s.pty.moves (i.queues s).length)

/-- The system takes all the bytes of the frame that are written. -/
def Whole (s : Session) (i : Input) : Prop := i.accepts s = i.queues s

instance (s : Session) (i : Input) : Decidable (i.Whole s) :=
  inferInstanceAs (Decidable (i.accepts s = i.queues s))

@[simp] theorem payload_data (m : Moment) (bytes : List UInt8) : (data m bytes).payload = bytes := rfl

@[simp] theorem payload_resize (m : Moment) (cols rows pxW pxH : UInt16) :
    (resize m cols rows pxW pxH).payload = [] := rfl

end Input

open Input

structure Fed (s : Session) (i : Input) (t : Session) : Prop where
  live : t.Live
  input : t.pty.input = s.pty.input ++ i.accepts s
  silent : i.heard s = false → t.leaseBlocksInput = true
  reported : i.queues s ≠ [] → t.lastDelivery ≠ .unknown

section
variable {s : Session} {m : Moment}

theorem Live.applyData (h : s.Live) (hheard : (s.expireInputLeaseIfDue m).leaseBlocksInput = false)
    (bytes : List UInt8) :
    ((applyData m bytes).exec s).2.pty.input = s.pty.input ++ bytes.take (s.pty.moves bytes.length) ∧
      ((applyData m bytes).exec s).2.lastDelivery ≠ .unknown := by
  have hinput := (Pty.writeAll_moves h.master bytes).1
  have hpty : (s.expireInputLeaseIfDue m).pty = s.pty := rfl
  rw [exec_applyData h.alive hheard h.flushed, exec_flushLoop_one]
  dsimp only
  rw [hpty]
  generalize (Pty.writeAll bytes).exec s.pty = r at hinput ⊢
  obtain ⟨e | _, pty⟩ := r
  · exact ⟨hinput, InputDelivery.noConfusion⟩
  · exact ⟨hinput, InputDelivery.noConfusion⟩

theorem Live.applyResize (h : s.Live) (hheard : (s.expireInputLeaseIfDue m).leaseBlocksInput = false)
    (size : Winsize) : ((applyResize m size).exec s).2.pty.input = s.pty.input := by
  have hinput := s.pty.setWinsize_input size
  rw [exec_applyResize hheard h.flushed]
  generalize (Pty.setWinsize size).exec s.pty = r at hinput ⊢
  obtain ⟨e | _, pty⟩ := r
  · exact hinput
  · exact hinput

theorem Live.fed (h : s.Live) (i : Input) : Fed s i (i.next s) := by
  have hsteady : Steady s (i.next s) := onFrame_steady s i.moment (by cases i <;> rfl)
  have hlive : (i.next s).Live :=
    ⟨hsteady.childExit.trans h.alive, hsteady.pty.master.trans h.master, h.flushed.onFrame _ _⟩
  cases hblocks : (s.expireInputLeaseIfDue i.moment).leaseBlocksInput with
  | true =>
    have hnext : i.next s = s.expireInputLeaseIfDue i.moment := by
      cases i with
      | data m bytes => exact (onFrame_of_blocked h.alive hblocks).1 bytes
      | resize m cols rows pxW pxH => exact (onFrame_of_blocked h.alive hblocks).2 ⟨cols, rows, pxW, pxH⟩
    have hqueues : i.queues s = [] := by simp [queues, heard, hblocks]
    have hinput : (i.next s).pty.input = s.pty.input := hnext ▸ rfl
    refine ⟨hlive, ?_, fun _ => hnext ▸ hblocks, fun hne => absurd hqueues hne⟩
    simp [accepts, hqueues, hinput]
  | false =>
    have hheard : i.heard s = true := by simp [heard, hblocks]
    cases i with
    | data m bytes =>
      obtain ⟨hinput, hreported⟩ := h.applyData hblocks bytes
      refine ⟨hlive, hinput.trans ?_, fun hsilent => absurd hsilent (by simp [hheard]), fun _ => hreported⟩
      simp [accepts, queues, hheard]
    | resize m cols rows pxW pxH =>
      have hinput := h.applyResize hblocks ⟨cols, rows, pxW, pxH⟩
      refine ⟨hlive, hinput.trans ?_, fun hsilent => absurd hsilent (by simp [hheard]), ?_⟩
      · simp [accepts, queues]
      · simp [queues]

end

-- ---------------------------------------------------------------------------
-- Runs
-- ---------------------------------------------------------------------------

def fed (s : Session) (inputs : List Input) : Session := inputs.foldl Input.next s

def offered (inputs : List Input) : List UInt8 := inputs.flatMap payload

/-- What of the payloads is queued. -/
def queued : Session → List Input → List UInt8 := along Input.next queues

def accepted (s : Session) (inputs : List Input) : List UInt8 :=
  (s.fed inputs).pty.input.drop s.pty.input.length

/-- No write fails before it has moved its last byte. -/
def AllWhole : Session → List Input → Prop := AllAlong Input.next fun s i => i.Whole s

/-- What is promised of input: it goes to the PTY in order; what does not is still queued, or said
to be lost; only what was written counts as dispatched; and a RESIZE comes after the DATA before
it. -/
structure Delivered (s : Session) (inputs : List Input) : Prop where
  inOrder : s.accepted inputs <+: offered inputs
  kept : s.accepted inputs ++ (s.fed inputs).pendingInput.flatten = s.queued inputs ∨
    (s.fed inputs).lastDelivery = .unknown
  dispatched : (s.fed inputs).lastDelivery = .dispatched → s.accepted inputs = s.queued inputs
  resized : ∀ m cols rows pxW pxH, (resize m cols rows pxW pxH).heard (s.fed inputs) = true →
    s.accepted inputs = s.queued inputs

section
variable {s : Session}

theorem queued_cons (s : Session) (i : Input) (inputs : List Input) :
    s.queued (i :: inputs) = i.queues s ++ (i.next s).queued inputs := rfl

theorem Live.fed_live (h : s.Live) (inputs : List Input) : (s.fed inputs).Live := by
  induction inputs generalizing s with
  | nil => exact h
  | cons i inputs ih => exact ih (h.fed i).live

/-- Nothing that was accepted is taken back. -/
theorem Live.input_fed (h : s.Live) (inputs : List Input) :
    (s.fed inputs).pty.input = s.pty.input ++ s.accepted inputs := by
  have hextends : s.pty.input <+: (s.fed inputs).pty.input := by
    induction inputs generalizing s with
    | nil => exact List.prefix_refl _
    | cons i inputs ih =>
      have hfirst : s.pty.input <+: (i.next s).pty.input := ⟨_, (h.fed i).input.symm⟩
      exact hfirst.trans (ih (h.fed i).live)
  obtain ⟨rest, hrest⟩ := hextends
  rw [accepted, ← hrest, List.drop_left]

theorem Live.accepted_cons (h : s.Live) (i : Input) (inputs : List Input) :
    s.accepted (i :: inputs) = i.accepts s ++ (i.next s).accepted inputs := by
  have hwhole := h.input_fed (i :: inputs)
  have hrest := (h.fed i).live.input_fed inputs
  rw [(h.fed i).input, List.append_assoc] at hrest
  exact List.append_cancel_left (hwhole.symm.trans hrest)

/-- Once the lease has run out nothing more is queued. -/
theorem Live.queued_of_blocked (h : s.Live) (hblocks : s.leaseBlocksInput = true)
    (inputs : List Input) : s.queued inputs = [] := by
  induction inputs generalizing s with
  | nil => rfl
  | cons i inputs ih =>
    have hsilent : i.heard s = false := by
      simp [heard, leaseBlocksInput_of_blocked hblocks]
    rw [queued_cons, ih (h.fed i).live ((h.fed i).silent hsilent)]
    simp [queues, hsilent]

theorem Live.queued_prefix (h : s.Live) (inputs : List Input) :
    s.queued inputs <+: offered inputs := by
  induction inputs generalizing s with
  | nil => exact List.prefix_refl _
  | cons i inputs ih =>
    have hoffered : offered (i :: inputs) = i.payload ++ offered inputs := List.flatMap_cons
    rw [queued_cons, hoffered]
    cases hheard : i.heard s with
    | false =>
      rw [(h.fed i).live.queued_of_blocked ((h.fed i).silent hheard)]
      simp [queues, hheard]
    | true =>
      have hqueues : i.queues s = i.payload := by simp [queues, hheard]
      rw [hqueues]
      exact (List.prefix_append_right_inj _).mpr (ih (h.fed i).live)

theorem Live.accepted_of_whole (h : s.Live) {inputs : List Input} (hwhole : AllWhole s inputs) :
    s.accepted inputs = s.queued inputs := by
  induction inputs generalizing s with
  | nil => exact List.drop_length
  | cons i inputs ih =>
    rw [h.accepted_cons, queued_cons, ih (h.fed i).live hwhole.2]
    exact congrArg (· ++ _) hwhole.1

theorem Live.delivered_of_whole (h : s.Live) {inputs : List Input} (hwhole : AllWhole s inputs) :
    Delivered s inputs := by
  have hall := h.accepted_of_whole hwhole
  have hflushed : (s.fed inputs).pendingInput = [] := (h.fed_live inputs).flushed
  refine ⟨?_, .inl ?_, fun _ => hall, fun _ _ _ _ _ _ => hall⟩
  · rw [hall]
    exact h.queued_prefix inputs
  · rw [hflushed, hall, List.flatten_nil, List.append_nil]

/-- A write that moves less than its bytes is found out, for they are kept nowhere. -/
theorem Live.whole_of_kept (h : s.Live) {inputs : List Input}
    (hkept : ∀ pre, pre <+: inputs →
      s.accepted pre = s.queued pre ∨ (s.fed pre).lastDelivery = .unknown) : AllWhole s inputs := by
  induction inputs generalizing s with
  | nil => trivial
  | cons i inputs ih =>
    have hfirst : i.Whole s := by
      cases hqueues : i.queues s with
      | nil => simp [Whole, accepts, hqueues]
      | cons b bytes =>
        have hreported := (h.fed i).reported (by simp [hqueues])
        obtain hall | hunknown := hkept [i] (by simp)
        · rw [h.accepted_cons, queued_cons] at hall
          have hnil : (i.next s).accepted [] = [] := List.drop_length
          have hnone : (i.next s).queued [] = [] := rfl
          rwa [hnil, hnone, List.append_nil, List.append_nil] at hall
        · exact absurd hunknown hreported
    refine ⟨hfirst, ih (h.fed i).live fun pre hpre => ?_⟩
    obtain hall | hunknown := hkept (i :: pre) (List.cons_prefix_cons.mpr ⟨rfl, hpre⟩)
    · rw [h.accepted_cons, queued_cons, hfirst] at hall
      exact .inl (List.append_cancel_left hall)
    · exact .inr hunknown

/-- Input is delivered as promised at every point of a run exactly when each write of it moves
all of its bytes. -/
theorem inputs_delivered_iff (hreached : Reached s) (halive : s.childExit = none)
    (hmaster : s.pty.master = true) (inputs : List Input) :
    (∀ pre, pre <+: inputs → Delivered s pre) ↔ AllWhole s inputs := by
  have h : s.Live := ⟨halive, hmaster, hreached.flushed⟩
  constructor
  · intro hdelivered
    refine h.whole_of_kept fun pre hpre => ?_
    have hflushed : (s.fed pre).pendingInput = [] := (h.fed_live pre).flushed
    have hkept := (hdelivered pre hpre).kept
    rwa [hflushed, List.flatten_nil, List.append_nil] at hkept
  · exact fun hwhole pre hpre => h.delivered_of_whole (AllAlong.of_prefix hwhole hpre)

end

def attachedTo (turns : List Turn) : Session :=
  Call.next (.spawn (.spawn ⟨80, 24, 0, 0⟩ turns) false ⟨80, 24, 0, 0⟩)
    (.frame ⟨0, 60⟩ (.attach 7 none 1 false))

/-- A quiet system takes DATA, RESIZE and DATA. -/
theorem inputs_delivered_iff_quiet :
    Delivered (attachedTo []) [.data ⟨1, 60⟩ [97, 98], .resize ⟨2, 60⟩ 100 30 0 0, .data ⟨3, 60⟩ [99]] := by
  have hreached : Reached (attachedTo []) := .call (.spawn _ _ _) _
  have hwhole : AllWhole (attachedTo []) [.data ⟨1, 60⟩ [97, 98], .resize ⟨2, 60⟩ 100 30 0 0,
      .data ⟨3, 60⟩ [99]] := ⟨by decide, by decide, by decide, trivial⟩
  exact (inputs_delivered_iff hreached rfl rfl _).mpr hwhole _ (List.prefix_refl _)

/-- The first write fails after one of two bytes, and the next one leaves a gap: the PTY has
`a` and `c`, nothing is queued, and all counts as dispatched. -/
theorem short_write_gap :
    let s := attachedTo [⟨[], none, some .io, some 1⟩]
    let inputs := [Input.data ⟨1, 60⟩ [97, 98], Input.data ⟨2, 60⟩ [99]]
    Reached s ∧ s.attached = true ∧ s.Live ∧ ¬ Delivered s inputs ∧
      s.accepted inputs = [97, 99] ∧ (s.fed inputs).pendingInput = [] ∧
      (s.fed inputs).lastDelivery = .dispatched := by
  refine ⟨.call (.spawn _ _ _) _, rfl, ⟨rfl, rfl, rfl⟩, fun h => ?_, by decide, by decide, by decide⟩
  exact absurd h.inOrder (by decide)

end Session

end Rill.Kernel
