import Rill.Kernel.History
import Rill.Kernel.Steady
import Rill.Lib.Runs

/-!
# Credit is backpressure

A session under any calls of its host, one after the other. What a call does to
the credit, the ring and the queue is accounted for by what the PTY gave up
during it.
-/

namespace Rill.Kernel

open Lib Attach

/-- A call of a session's host. One that fails leaves what it did until then. -/
inductive Call
  | frame (m : Moment) (f : Frame)
  | detach
  | releaseObserver
  | ptyReadable

namespace Call

def next (s : Session) : Call → Session
  | frame m f => ((Session.onFrame m f).exec s).2
  | detach => s.detach
  | releaseObserver => s.releaseObserver
  | ptyReadable => (Session.onPtyReadable.exec s).2

/-- What is read from the PTY during a call. -/
def reads (s : Session) (call : Call) : List UInt8 :=
  (next s call).pty.taken.drop s.pty.taken.length

/-- What of a call's reads finds someone who listens. -/
def heard (s : Session) (call : Call) : List UInt8 :=
  if s.hasListeners then call.reads s else []

def grants : Call → Nat
  | frame _ (.credit n) => n.toNat
  | _ => 0

def payload (q : Queued) : List UInt8 :=
  match q.frame with
  | .data bytes => bytes
  | _ => []

/-- The DATA that `onPtyReadable` queues. -/
def queues (s : Session) : Call → List UInt8
  | ptyReadable => ((next s ptyReadable).outbound.drop s.outbound.length).flatMap payload
  | _ => []

/-- A call reads nothing, or is the one that reads and has the credit for it. -/
theorem next_cases (s : Session) (call : Call) :
    ((next s call).pty.taken = s.pty.taken ∧ (next s call).ring = s.ring ∧
        (next s call).credit ≤ s.credit + call.grants ∧ call.queues s = []) ∨
      ∃ got p, call = ptyReadable ∧ s.pty.Gives p got ∧ got.length ≤ s.credit ∧
        next s call = ({ s with pty := p } : Session).deliverQueued s.pty.taken.length got := by
  cases call with
  | frame m f =>
    left
    have hcredit : (next s (frame m f)).credit ≤ s.credit + (frame m f).grants := by
      rw [next, Session.onFrame_credit]
      cases f with
      | credit n => exact Nat.min_le_left _ _
      | attach | data | resize | exit | refused | checkpoint | delta | resyncRequest =>
        exact Nat.le_add_right _ _
    by_cases hf : f.isAttach = true
    · cases f with
      | attach generation sessionId protocol observe =>
        have hattach : (s.attach m generation observe).pty = s.pty ∧
            (s.attach m generation observe).ring = s.ring := by
          unfold Session.attach
          split
          case isTrue => exact ⟨rfl, rfl⟩
          case isFalse =>
            split
            case isTrue => exact ⟨rfl, rfl⟩
            case isFalse => exact ⟨rfl, rfl⟩
        exact ⟨congrArg Pty.taken hattach.1, hattach.2, hcredit, rfl⟩
      | data | credit | resize | exit | refused | checkpoint | delta | resyncRequest => cases hf
    · have hsteady := Session.onFrame_steady s m (by simpa using hf)
      exact ⟨hsteady.pty.taken, hsteady.ring, hcredit, rfl⟩
  | detach => exact .inl ⟨s.detach_taken, rfl, Nat.zero_le _, rfl⟩
  | releaseObserver => exact .inl ⟨rfl, rfl, Nat.le_add_right _ _, rfl⟩
  | ptyReadable =>
    rcases Session.onPtyReadable_spec s with
      ⟨r, t, hrun, hsteady, hcredit, -⟩ | ⟨got, p, hrun, -, hlen, hgives⟩
    · left
      have hnext : next s ptyReadable = t := congrArg Prod.snd hrun
      rw [queues, hnext, hsteady.outbound, List.drop_length]
      exact ⟨hsteady.pty.taken, hsteady.ring, Nat.le_of_eq hcredit, rfl⟩
    · refine .inr ⟨got, p, rfl, hgives, Nat.le_trans hlen (Nat.min_le_left _ _), ?_⟩
      exact congrArg Prod.snd hrun

/-- What a call reads goes into the ring, is paid for, and is queued if someone listens. -/
structure Accounted (s : Session) (call : Call) : Prop where
  taken : (next s call).pty.taken = s.pty.taken ++ call.reads s
  ring : (next s call).ring = s.ring.append (call.reads s)
  credit : (next s call).credit + (call.reads s).length ≤ s.credit + call.grants
  queued : call.queues s = call.heard s

theorem accounted (s : Session) (call : Call) : Accounted s call := by
  rcases next_cases s call with ⟨htaken, hring, hcredit, hqueues⟩ | ⟨got, p, rfl, hgives, hlen, hnext⟩
  · have hreads : call.reads s = [] := by rw [reads, htaken, List.drop_length]
    constructor
    case taken => rw [hreads, List.append_nil, htaken]
    case ring => rw [hreads, ByteRing.append_nil, hring]
    case credit =>
      rw [hreads]
      exact hcredit
    case queued => rw [heard, hreads, hqueues, ite_self]
  · have hreads : ptyReadable.reads s = got := by
      rw [reads, hnext]
      change p.taken.drop _ = got
      rw [hgives.taken, List.drop_left]
    have hqueues : ptyReadable.queues s = if s.hasListeners then got else [] := by
      rw [queues, hnext]
      change List.flatMap payload (List.drop _ (if s.hasListeners then _ else _)) = _
      split
      case isTrue =>
        rw [List.drop_left]
        exact List.append_nil got
      case isFalse =>
        rw [List.drop_length]
        rfl
    constructor
    case taken =>
      rw [hreads, hnext]
      exact hgives.taken
    case ring =>
      rw [hreads, hnext]
      rfl
    case credit =>
      rw [hreads, hnext]
      change s.credit - got.length + got.length ≤ s.credit + 0
      omega
    case queued => rw [heard, hreads, hqueues]

-- ---------------------------------------------------------------------------
-- Runs
-- ---------------------------------------------------------------------------

def after (s : Session) (calls : List Call) : Session := calls.foldl next s

def allReads : Session → List Call → List UInt8 := along next reads

def allHeard : Session → List Call → List UInt8 := along next heard

def allQueued : Session → List Call → List UInt8 := along next queues

def granted (calls : List Call) : Nat := (calls.map grants).sum

theorem taken_after (s : Session) (calls : List Call) :
    (after s calls).pty.taken = s.pty.taken ++ allReads s calls := by
  refine along_rel (R := fun s _ out t => t.pty.taken = s.pty.taken ++ out)
    (fun s => (List.append_nil _).symm) (fun s call _ out t h => ?_) s calls
  rw [h, (accounted s call).taken, List.append_assoc]

theorem ring_after (s : Session) (calls : List Call) {stream : List UInt8}
    (h : s.ring.data = stream.drop (stream.length - s.ring.cap)) :
    (after s calls).ring.cap = s.ring.cap ∧ (after s calls).ring.data =
      (stream ++ allReads s calls).drop ((stream ++ allReads s calls).length - s.ring.cap) := by
  refine along_rel (R := fun s _ out t => ∀ stream : List UInt8,
    s.ring.data = stream.drop (stream.length - s.ring.cap) → t.ring.cap = s.ring.cap ∧
      t.ring.data = (stream ++ out).drop ((stream ++ out).length - s.ring.cap))
    (fun s stream h => ?_) (fun s call _ out t ih stream h => ?_) s calls stream h
  · rw [List.append_nil]
    exact ⟨rfl, h⟩
  · have hring := (accounted s call).ring
    have hcap : (next s call).ring.cap = s.ring.cap := by rw [hring, ByteRing.cap_append]
    have hdata := ByteRing.data_append h (call.reads s)
    rw [← hring, ← hcap] at hdata
    have hrest := ih (stream ++ call.reads s) hdata
    rwa [hcap, List.append_assoc] at hrest

theorem credit_after (s : Session) (calls : List Call) :
    (after s calls).credit + (allReads s calls).length ≤ s.credit + granted calls := by
  refine along_rel (R := fun s calls out t => t.credit + out.length ≤ s.credit + granted calls)
    (fun s => Nat.le_refl _) (fun s call calls out t h => ?_) s calls
  have hcredit := (accounted s call).credit
  simp only [granted, List.map_cons, List.sum_cons, List.length_append] at h ⊢
  omega

theorem queued_eq_heard (s : Session) (calls : List Call) : allQueued s calls = allHeard s calls := by
  have h : queues = heard := funext fun s => funext fun call => (accounted s call).queued
  rw [allQueued, allHeard, h]

end Call

/-- Whatever the host calls, a read is paid for with credit that is there; no more is read
since a detach than was granted since; the ring is the end of all that was read; and what
was read while someone listened is what was queued. -/
theorem session_backpressure (pty : Pty) (ephemeral : Bool) (size : Winsize) (calls : List Call) :
    let s₀ := Session.spawn pty ephemeral size
    let s := Call.after s₀ calls
    let stream := Call.allReads s₀ calls
    (∀ call : Call, call.reads s ≠ [] → call = .ptyReadable ∧ (call.reads s).length ≤ s.credit ∧
      (Call.next s call).credit = s.credit - (call.reads s).length) ∧
    (∀ before span, calls = before ++ span → before = [] ∨ before.getLast? = some .detach →
      (Call.allReads (Call.after s₀ before) span).length ≤ Call.granted span) ∧
    s.pty.taken = pty.taken ++ stream ∧
    s.ring.cap = ringCap ∧
    s.history = stream.drop (stream.length - min s.ring.cap stream.length) ∧
    Call.allQueued s₀ calls = Call.allHeard s₀ calls := by
  intro s₀ s stream
  have hring : (Call.after s₀ calls).ring.cap = ringCap ∧ (Call.after s₀ calls).ring.data =
      ([] ++ stream).drop (([] ++ stream).length - ringCap) :=
    Call.ring_after s₀ calls List.drop_nil.symm
  refine ⟨fun call hreads => ?_, fun before span hcalls hstart => ?_, Call.taken_after s₀ calls,
    hring.1, ?_, Call.queued_eq_heard s₀ calls⟩
  · rcases Call.next_cases s call with ⟨htaken, -, -, -⟩ | ⟨got, p, rfl, hgives, hlen, hnext⟩
    · rw [Call.reads, htaken, List.drop_length] at hreads
      exact absurd rfl hreads
    · have hgot : Call.ptyReadable.reads s = got := by
        rw [Call.reads, hnext]
        change p.taken.drop _ = got
        rw [hgives.taken, List.drop_left]
      rw [hgot, hnext]
      exact ⟨rfl, hlen, rfl⟩
  · have hzero : (Call.after s₀ before).credit = 0 := by
      rcases hstart with rfl | hlast
      · rfl
      · obtain ⟨init, rfl⟩ := List.getLast?_eq_some_iff.mp hlast
        rw [Call.after, List.foldl_append]
        rfl
    have hspent := Call.credit_after (Call.after s₀ before) span
    omega
  · have hcap : s.ring.cap = ringCap := hring.1
    have hlast : stream.length - min ringCap stream.length = stream.length - ringCap := by omega
    rw [hcap, hlast]
    exact hring.2

theorem session_backpressure_detach :
    let s₀ := Session.spawn (.spawn ⟨1, 1, 0, 0⟩ [⟨[97, 98, 99], none, none, none⟩]) false ⟨1, 1, 0, 0⟩
    let before := [Call.frame ⟨0, 3600⟩ (.credit 2), .ptyReadable, .detach]
    (Call.ptyReadable.reads (Call.after s₀ (before.take 1))).length ≤ 2 ∧
      (Call.allReads (Call.after s₀ before) [.frame ⟨0, 3600⟩ (.credit 1), .ptyReadable]).length ≤ 1 := by
  intro s₀ before
  obtain ⟨hpaid, -⟩ := session_backpressure (.spawn ⟨1, 1, 0, 0⟩ [⟨[97, 98, 99], none, none, none⟩])
    false ⟨1, 1, 0, 0⟩ (before.take 1)
  obtain ⟨-, hspan, -⟩ := session_backpressure (.spawn ⟨1, 1, 0, 0⟩ [⟨[97, 98, 99], none, none, none⟩])
    false ⟨1, 1, 0, 0⟩ (before ++ [.frame ⟨0, 3600⟩ (.credit 1), .ptyReadable])
  exact ⟨(hpaid .ptyReadable (by decide)).2.1, hspan before _ rfl (.inr rfl)⟩

end Rill.Kernel
