import Rill.Kernel.Input
import Rill.Lib.Runs

/-!
# The input lease

The ATTACH that gets the claim takes the lease, with its generation for a nonce.
Nothing renews it, and every look at the clock may end it. An ended lease and the
nonce 0 look alike, and with either the writer is heard no more.
-/

namespace Rill.Kernel

open Lib Attach

-- ---------------------------------------------------------------------------
-- The lease alone
-- ---------------------------------------------------------------------------

structure Lease where
  generation : Nat
  nonce : UInt64
  expiry : Option Nat
  deriving DecidableEq, Repr

namespace Lease

def expire (l : Lease) (m : Moment) : Lease :=
  if l.expiry.any fun t => t ≤ m.now then { l with nonce := 0, expiry := none } else l

def blocks (l : Lease) : Bool := l.generation > 0 && l.nonce = 0

theorem foldl_expire_none (n : Nat) (nonce : UInt64) (ms : List Moment) :
    ms.foldl expire ⟨n, nonce, none⟩ = ⟨n, nonce, none⟩ := by
  induction ms with
  | nil => rfl
  | cons m ms ih => exact ih

/-- One look that is too late ends the lease for good. -/
theorem foldl_expire (n : Nat) (nonce : UInt64) (t : Nat) (ms : List Moment) :
    ms.foldl expire ⟨n, nonce, some t⟩ =
      if ∀ m ∈ ms, m.now < t then ⟨n, nonce, some t⟩ else ⟨n, 0, none⟩ := by
  induction ms with
  | nil => rw [if_pos nofun]; rfl
  | cons m ms ih =>
    rw [List.foldl_cons, expire]
    by_cases hdue : t ≤ m.now
    · have hlate : ¬ ∀ m' ∈ m :: ms, m'.now < t :=
        fun h => Nat.not_lt.mpr hdue (h m List.mem_cons_self)
      rw [if_neg hlate, if_pos (by simpa using hdue)]
      exact foldl_expire_none n 0 ms
    · have hcongr : (∀ m' ∈ m :: ms, m'.now < t) ↔ ∀ m' ∈ ms, m'.now < t := by
        rw [List.forall_mem_cons]
        exact and_iff_right (Nat.lt_of_not_le hdue)
      rw [if_neg (by simpa using hdue), ih]
      simp only [hcongr]

theorem blocks_foldl_expire {n : Nat} (hn : 0 < n) (nonce : UInt64) (t : Nat) (ms : List Moment) :
    (ms.foldl expire ⟨n, nonce, some t⟩).blocks = false ↔ nonce ≠ 0 ∧ ∀ m ∈ ms, m.now < t := by
  rw [foldl_expire]
  by_cases hin : ∀ m ∈ ms, m.now < t
  · rw [if_pos hin, and_iff_left hin]
    simp [blocks, hn]
  · rw [if_neg hin]
    exact iff_of_false (by simp [blocks, hn]) fun h => hin h.2

end Lease

-- ---------------------------------------------------------------------------
-- The session
-- ---------------------------------------------------------------------------

namespace Session

def lease (s : Session) : Lease := ⟨s.leaseGeneration, s.leaseNonce, s.leaseUntil⟩

theorem lease_expire (s : Session) (m : Moment) :
    (s.expireInputLeaseIfDue m).lease = s.lease.expire m := by
  unfold lease expireInputLeaseIfDue Lease.expire leaseDue
  dsimp only
  split
  case isTrue => rfl
  case isFalse => rfl

/-- The session has the lease `l`, and knows of no exit that there was not. -/
structure Holds (l : Lease) (s : Session) : Prop where
  lease : s.lease = l
  knows : s.pty.Knows (s.childExit.isSome = true)

namespace Holds

variable {l : Lease}

theorem expire {s : Session} (h : Holds l s) (m : Moment) :
    Holds (l.expire m) (s.expireInputLeaseIfDue m) :=
  ⟨(s.lease_expire m).trans (congrArg (Lease.expire · m) h.lease), h.knows⟩

theorem onPty {m : Op Pty Error α} (hm : ∀ gone, Op.Keeps (Pty.Knows gone) m) :
    Op.Keeps (Holds l) (onPty m) :=
  Op.Keeps.on fun s h => ⟨h.lease, hm _ s.pty h.knows⟩

theorem flushLoop (bufs : List (List UInt8)) : Op.Keeps (Holds l) (flushLoop bufs) := by
  induction bufs with
  | nil => exact Op.Keeps.pure _
  | cons buf rest ih =>
    refine Op.Keeps.bind (Op.Keeps.modify fun s h => ⟨h.lease, h.knows⟩) fun _ => ?_
    refine Op.Keeps.bind (onPty fun _ => Pty.Knows.writeAll buf) fun _ => ?_
    exact Op.Keeps.bind (Op.Keeps.modify fun s h => ⟨h.lease, h.knows⟩) fun _ => ih

theorem flushInput : Op.Keeps (Holds l) flushInput :=
  Op.Keeps.bind Op.Keeps.get fun s => flushLoop s.pendingInput

theorem applyResize {s : Session} (h : Holds l s) (m : Moment) (size : Winsize) :
    Holds (l.expire m) ((applyResize m size).exec s).2 := by
  rw [Session.applyResize, Op.exec_modify_bind]
  refine Op.Keeps.bind Op.Keeps.get (fun t => ?_) _ (h.expire m)
  refine Op.Keeps.ite (fun _ => Op.Keeps.pure _) fun _ => ?_
  refine Op.Keeps.bind flushInput fun _ => ?_
  refine Op.Keeps.bind (Op.Keeps.modify fun s h => ⟨h.lease, h.knows⟩) fun _ => ?_
  refine Op.Keeps.bind (onPty fun _ => Pty.Knows.setWinsize size) fun _ => ?_
  exact Op.Keeps.modify fun s h => ⟨h.lease, h.knows⟩

theorem applyData {s : Session} (h : Holds l s) (m : Moment) (bytes : List UInt8) :
    Holds (if s.childExit.isSome then l else l.expire m) ((applyData m bytes).exec s).2 := by
  rw [Session.applyData, Op.exec_get_bind]
  split
  case isTrue => exact h
  case isFalse =>
    rw [Op.exec_modify_bind]
    refine Op.Keeps.bind Op.Keeps.get (fun t => ?_) _ (h.expire m)
    refine Op.Keeps.ite (fun _ => Op.Keeps.pure _) fun _ => ?_
    exact Op.Keeps.bind (Op.Keeps.modify fun s h => ⟨h.lease, h.knows⟩) fun _ => flushInput

theorem pollChild : Op.Keeps (Holds l) pollChild := by
  intro s h
  rw [Session.pollChild, Op.exec_get_bind]
  split
  case isTrue => exact h
  case isFalse =>
    have hkept : Holds l ((Session.onPty Pty.tryWait).exec s).2 :=
      onPty (fun _ => Pty.Knows.tryWait) s h
    have hrun : (Session.onPty Pty.tryWait).exec s =
        ((Pty.tryWait.exec s.pty).1, { s with pty := (Pty.tryWait.exec s.pty).2 }) := rfl
    rw [hrun] at hkept
    rcases hwait : Pty.tryWait.exec s.pty with ⟨e | _ | status, p⟩
    · rw [hwait] at hrun hkept
      rw [Op.exec_bind_error hrun]
      exact hkept
    · rw [hwait] at hrun hkept
      rw [Op.exec_bind_ok hrun]
      exact hkept
    · rw [hwait] at hrun hkept
      rw [Op.exec_bind_ok hrun]
      have hreaped : p.reaped = some status := by
        rw [Pty.exec_tryWait] at hwait
        split at hwait
        case isTrue =>
          obtain ⟨hstatus, rfl⟩ := Prod.mk.inj hwait
          exact Except.ok.inj hstatus
        case isFalse =>
          split at hwait
          case isTrue => cases hwait
          case isFalse =>
            obtain ⟨hstatus, rfl⟩ := Prod.mk.inj hwait
            exact Except.ok.inj hstatus
      exact ⟨hkept.lease, fun _ => hkept.knows (.inr (.inl (by rw [hreaped]; rfl)))⟩

theorem attach {s : Session} (h : Holds l s) {m : Moment} {generation : UInt64} {observe : Bool}
    (hkept : (!observe && !s.attached) = false) : Holds l (s.attach m generation observe) := by
  unfold Session.attach
  split
  case isTrue => exact ⟨h.lease, h.knows⟩
  case isFalse hobserve =>
    split
    case isTrue => exact ⟨h.lease, h.knows⟩
    case isFalse hattached => simp [hobserve, hattached] at hkept

end Holds

end Session

-- ---------------------------------------------------------------------------
-- Whatever the session is used for
-- ---------------------------------------------------------------------------

/-- A call of one of the session's methods. One that fails leaves what it did until then. -/
inductive Use
  | frame (m : Moment) (f : Frame)
  | takeInputLease (m : Moment) (nonce : UInt64)
  | expireInputLeaseIfDue (m : Moment)
  | reap (m : Moment)
  | pollChild
  | detach
  | terminate
  | releaseObserver
  | enqueueOutbound (q : Queued)
  | popOutbound
  | takeResyncHistory
  | noteStalledRead
  | ptyReadable
  | drainPtyAtMost (max : Option Nat)

namespace Use

def next (s : Session) : Use → Session
  | frame m f => ((Session.onFrame m f).exec s).2
  | takeInputLease m nonce => s.takeInputLease m nonce
  | expireInputLeaseIfDue m => s.expireInputLeaseIfDue m
  | reap m => ((Session.reap m).exec s).2
  | pollChild => (Session.pollChild.exec s).2
  | detach => s.detach
  | terminate => (Session.terminate.exec s).2
  | releaseObserver => s.releaseObserver
  | enqueueOutbound q => s.enqueueOutbound q
  | popOutbound => { s with outbound := s.outbound.tail }
  | takeResyncHistory => s.takeResyncHistory.2
  | noteStalledRead => s.noteStalledRead
  | ptyReadable => (Session.onPtyReadable.exec s).2
  | drainPtyAtMost max => ((Session.drainPtyAtMost max).exec s).2

/-- The look at the clock that a call takes. -/
def reading (s : Session) : Use → Option Moment
  | frame m (.data _) => if s.childExit.isSome then none else some m
  | frame m (.resize ..) | expireInputLeaseIfDue m | reap m => some m
  | _ => none

def takes (s : Session) : Use → Bool
  | frame _ (.attach _ _ _ observe) => !observe && !s.attached
  | takeInputLease .. => true
  | _ => false

def after (s : Session) (uses : List Use) : Session := uses.foldl next s

def readings : Session → List Use → List Moment := along next fun s use => (use.reading s).toList

def takings : Session → List Use → List Use :=
  along next fun s use => if use.takes s then [use] else []

end Use

/-- `input_with_lease`, which looks at the clock twice where it gets as far. -/
def Session.inputWithLease (m m' : Moment) (nonce : UInt64) (bytes : List UInt8) :
    Op Session Error Unit := do
  modify fun s => s.expireInputLeaseIfDue m
  let s ← get
  if s.leaseNonce = 0 || s.leaseNonce ≠ nonce then pure ()
  else onFrame m' (.data bytes)

/-- Input under a lease is one of the calls above, or two. -/
theorem Use.after_inputWithLease (s : Session) (m m' : Moment) (nonce : UInt64) (bytes : List UInt8) :
    ((Session.inputWithLease m m' nonce bytes).exec s).2 = after s
      (if (s.expireInputLeaseIfDue m).leaseNonce = 0 || (s.expireInputLeaseIfDue m).leaseNonce ≠ nonce
        then [.expireInputLeaseIfDue m] else [.expireInputLeaseIfDue m, .frame m' (.data bytes)]) := by
  rw [Session.inputWithLease, Op.exec_modify_bind, Op.exec_get_bind]
  split
  case isTrue => rfl
  case isFalse => rfl

namespace Session.Holds

variable {l : Lease}

theorem onFrame {s : Session} (h : Holds l s) {m : Moment} {f : Frame}
    (hkept : (Use.frame m f).takes s = false) :
    Holds (((Use.frame m f).reading s).toList.foldl Lease.expire l) ((onFrame m f).exec s).2 := by
  cases f with
  | attach generation sessionId protocol observe => exact h.attach hkept
  | data bytes =>
    have hdata := h.applyData m bytes
    change Holds ((if s.childExit.isSome then none else some m).toList.foldl _ l) _
    split at hdata
    case isTrue hdead =>
      rw [if_pos hdead]
      exact hdata
    case isFalse halive =>
      rw [if_neg halive]
      exact hdata
  | resize cols rows pxW pxH => exact h.applyResize m ⟨cols, rows, pxW, pxH⟩
  | credit | exit | refused | checkpoint | delta | resyncRequest => exact ⟨h.lease, h.knows⟩

theorem terminate : Op.Keeps (Holds l) terminate := by
  refine Op.Keeps.bind Op.Keeps.get fun s => ?_
  refine Op.Keeps.ite (fun _ => Op.Keeps.pure _) fun _ => ?_
  exact Op.Keeps.bind (Op.Keeps.modify fun s h => ⟨h.lease, h.knows⟩) fun _ =>
    onPty fun _ => Pty.Knows.terminate

theorem detach {s : Session} (h : Holds l s) : Holds l s.detach := by
  refine ⟨h.lease, ?_⟩
  change (if s.ephemeral then (Pty.terminate.exec s.pty).2 else s.pty).Knows _
  split
  case isTrue => exact Pty.Knows.terminate s.pty h.knows
  case isFalse => exact h.knows

theorem onPtyReadable : Op.Keeps (Holds l) onPtyReadable := by
  refine Op.Keeps.bind Op.Keeps.get fun s => ?_
  refine Op.Keeps.ite (fun _ => ?_) fun _ => ?_
  · exact Op.Keeps.bind (Op.Keeps.modify fun s h => ⟨h.lease, h.knows⟩) fun _ => Op.Keeps.pure _
  · refine Op.Keeps.bind (onPty fun _ => Pty.Knows.read _) fun got => ?_
    refine Op.Keeps.ite (fun _ => Op.Keeps.pure _) fun _ => ?_
    exact Op.Keeps.bind (Op.Keeps.modify fun s h => ⟨h.lease, h.knows⟩) fun _ => Op.Keeps.pure _

theorem drainPtyAtMost (max : Option Nat) : Op.Keeps (Holds l) (drainPtyAtMost max) := by
  refine Op.Keeps.bind Op.Keeps.get fun s => ?_
  refine Op.Keeps.ite (fun _ => Op.Keeps.pure _) fun _ => ?_
  refine Op.Keeps.ite (fun _ => ?_) fun _ => ?_
  · exact Op.Keeps.bind (Op.Keeps.modify fun s h => ⟨h.lease, h.knows⟩) fun _ => Op.Keeps.pure _
  · refine Op.Keeps.bind (onPty fun _ => Pty.Knows.read _) fun got => ?_
    refine Op.Keeps.ite (fun _ => Op.Keeps.pure _) fun _ => ?_
    exact Op.Keeps.bind (Op.Keeps.modify fun s h => ⟨h.lease, h.knows⟩) fun _ => Op.Keeps.pure _

/-- A call that does not take the lease looks at it at most once. -/
theorem next {s : Session} (h : Holds l s) {use : Use} (hkept : use.takes s = false) :
    Holds ((use.reading s).toList.foldl Lease.expire l) (Use.next s use) := by
  cases use with
  | frame m f => exact h.onFrame hkept
  | takeInputLease => cases hkept
  | expireInputLeaseIfDue m => exact h.expire m
  | reap m =>
    rw [Use.next, Session.reap, Op.exec_modify_bind]
    exact pollChild _ (h.expire m)
  | pollChild => exact pollChild s h
  | detach => exact h.detach
  | terminate => exact terminate s h
  | ptyReadable => exact onPtyReadable s h
  | drainPtyAtMost max => exact drainPtyAtMost max s h
  | releaseObserver | enqueueOutbound | popOutbound | takeResyncHistory | noteStalledRead =>
    exact ⟨h.lease, h.knows⟩

theorem after {s : Session} (h : Holds l s) {uses : List Use} (hkept : Use.takings s uses = []) :
    Holds ((Use.readings s uses).foldl Lease.expire l) (Use.after s uses) := by
  induction uses generalizing s l with
  | nil => exact h
  | cons use uses ih =>
    obtain ⟨hfirst, hrest⟩ := List.append_eq_nil_iff.mp hkept
    have huse : use.takes s = false := by
      by_contra htakes
      rw [Bool.not_eq_false] at htakes
      dsimp only at hfirst
      rw [if_pos htakes] at hfirst
      cases hfirst
    have hafter := ih (h.next huse) hrest
    rwa [← List.foldl_append] at hafter

end Session.Holds

theorem Use.takes_knows {s : Session} {use : Use} (h : use.takes s = true) :
    (next s use).pty = s.pty ∧ (next s use).childExit = s.childExit := by
  cases use with
  | frame m f =>
    cases f with
    | attach generation sessionId protocol observe =>
      rw [next, Session.onFrame_attach]
      unfold Session.attach
      split
      case isTrue => exact ⟨rfl, rfl⟩
      case isFalse =>
        split
        case isTrue => exact ⟨rfl, rfl⟩
        case isFalse => exact ⟨rfl, rfl⟩
    | data | credit | resize | exit | refused | checkpoint | delta | resyncRequest => cases h
  | takeInputLease => exact ⟨rfl, rfl⟩
  | expireInputLeaseIfDue | reap | pollChild | detach | terminate | releaseObserver | enqueueOutbound |
    popOutbound | takeResyncHistory | noteStalledRead | ptyReadable | drainPtyAtMost => cases h

/-- Whatever a session was used for, it knows of no exit that there was not. -/
theorem Use.knows_after {s : Session} (h : s.pty.Knows (s.childExit.isSome = true))
    (uses : List Use) : (after s uses).pty.Knows ((after s uses).childExit.isSome = true) := by
  induction uses generalizing s with
  | nil => exact h
  | cons use uses ih =>
    refine ih ?_
    cases htakes : use.takes s with
    | true =>
      obtain ⟨hpty, hexit⟩ := takes_knows htakes
      rw [hpty, hexit]
      exact h
    | false => exact ((Session.Holds.mk rfl h).next htakes).knows

-- ---------------------------------------------------------------------------
-- The writer
-- ---------------------------------------------------------------------------

namespace Session

/-- DATA that is answered with `Ok` is written behind what was queued. -/
def WritesData (s : Session) (m : Moment) : Prop :=
  ∀ bytes t, (onFrame m (.data bytes)).exec s = (.ok (), t) →
    t.pty.input = s.pty.input ++ s.pendingInput.flatten ++ bytes

/-- A RESIZE that is answered with `Ok` is applied. -/
def AppliesResize (s : Session) (m : Moment) : Prop :=
  ∀ cols rows pxW pxH t, (onFrame m (.resize cols rows pxW pxH)).exec s = (.ok (), t) →
    t.size = ⟨cols, rows, pxW, pxH⟩ ∧ t.pty.winsize = ⟨cols, rows, pxW, pxH⟩

theorem writesData_iff {s : Session} {m : Moment} (halive : s.childExit = none)
    (hmaster : s.pty.master = true) :
    s.WritesData m ↔ (s.expireInputLeaseIfDue m).leaseBlocksInput = false := by
  constructor
  · intro h
    rcases s.applyData_spec m [0] with ⟨hdead, -⟩ | ⟨-, -, hrun⟩ | ⟨-, hblocks, -⟩
    · rw [halive] at hdead
      cases hdead
    · -- dropped
      have hinput := congrArg List.length (h [0] _ hrun)
      have hsame : (s.expireInputLeaseIfDue m).pty.input.length = s.pty.input.length := rfl
      rw [hsame, List.length_append, List.length_append, List.length_singleton] at hinput
      omega
    · exact hblocks
  · intro hblocks bytes t hok
    change (applyData m bytes).exec s = _ at hok
    rcases s.applyData_spec m bytes with ⟨hdead, -⟩ | ⟨-, hblocks', -⟩ |
      ⟨-, -, ⟨u, hrun, -, hinput⟩ | ⟨e, u, hrun, -⟩⟩
    · rw [halive] at hdead
      cases hdead
    · rw [hblocks] at hblocks'
      cases hblocks'
    · obtain ⟨-, rfl⟩ := Prod.mk.inj (hok.symm.trans hrun)
      exact hinput hmaster
    · cases hok.symm.trans hrun

theorem appliesResize_iff {s : Session} {m : Moment} :
    s.AppliesResize m ↔ (s.expireInputLeaseIfDue m).leaseBlocksInput = false := by
  constructor
  · intro h
    rcases s.applyResize_spec m ⟨s.size.cols + 1, 0, 0, 0⟩ with ⟨-, hrun⟩ | ⟨hblocks, -⟩
    · -- dropped
      have hcols := congrArg Winsize.cols (h _ _ _ _ _ hrun).1
      have hsame : (s.expireInputLeaseIfDue m).size = s.size := rfl
      rw [hsame] at hcols
      exact absurd hcols (by simp)
    · exact hblocks
  · intro hblocks cols rows pxW pxH t hok
    change (applyResize m ⟨cols, rows, pxW, pxH⟩).exec s = _ at hok
    rcases s.applyResize_spec m ⟨cols, rows, pxW, pxH⟩ with ⟨hblocks', -⟩ |
      ⟨-, ⟨u, hrun, -, hsize, hwinsize⟩ | ⟨e, u, hrun, -⟩⟩
    · rw [hblocks] at hblocks'
      cases hblocks'
    · obtain ⟨-, rfl⟩ := Prod.mk.inj (hok.symm.trans hrun)
      exact ⟨hsize, hwinsize⟩
    · cases hok.symm.trans hrun

end Session

/-- A writer whose ATTACH got the claim, while nobody else takes the lease: its DATA to a live
child and its RESIZEs are not dropped just where its generation is not zero and the clock, each
time it was looked at and now, is within the grace of the ATTACH. -/
theorem writer_heard_iff (winsize : Winsize) (turns : List Turn) (ephemeral : Bool) (size : Winsize)
    (before uses : List Use) (m₀ m : Moment) (generation : UInt64) (sessionId : Option UInt64)
    (protocol : UInt8) :
    let s₀ := Use.after (.spawn (.spawn winsize turns) ephemeral size) before
    let s₁ := Use.next s₀ (.frame m₀ (.attach generation sessionId protocol false))
    let s := Use.after s₁ uses
    let inTime := generation ≠ 0 ∧
      ∀ r ∈ Use.readings s₁ uses ++ [m], r.now < m₀.now + m₀.leaseGrace
    s₀.attached = false → Use.takings s₁ uses = [] →
      (s.pty.exited = none → (s.WritesData m ↔ inTime)) ∧ (s.AppliesResize m ↔ inTime) := by
  intro s₀ s₁ s inTime hfree hkept
  have hspawn : (Session.spawn (.spawn winsize turns) ephemeral size).pty.Knows
      ((Session.spawn (.spawn winsize turns) ephemeral size).childExit.isSome = true) := by
    rintro (hmaster | hreaped | hexit)
    · cases hmaster
    · cases hreaped
    · cases hexit
  have hclaim : s₁ = s₀.claim m₀ generation := by
    change s₀.attach m₀ generation false = _
    rw [Session.attach, if_neg Bool.false_ne_true, hfree, if_neg Bool.false_ne_true]
  let l : Lease := ⟨min (s₀.leaseGeneration + 1) u64Max, generation, some (m₀.now + m₀.leaseGrace)⟩
  have hholds₁ : s₁.Holds l := by
    rw [hclaim]
    exact ⟨rfl, Use.knows_after hspawn before⟩
  have hholds := hholds₁.after hkept
  have hblocks : (s.expireInputLeaseIfDue m).leaseBlocksInput = false ↔ inTime := by
    have hexpired := (hholds.expire m).lease
    change (s.expireInputLeaseIfDue m).lease.blocks = false ↔ _
    rw [hexpired]
    have hpos : 0 < min (s₀.leaseGeneration + 1) u64Max := Nat.lt_min.mpr ⟨Nat.succ_pos _, by decide⟩
    have hfold := Lease.blocks_foldl_expire hpos generation (m₀.now + m₀.leaseGrace)
      (Use.readings s₁ uses ++ [m])
    rwa [List.foldl_append] at hfold
  refine ⟨fun halive => ?_, Session.appliesResize_iff.trans hblocks⟩
  have hnone : ¬ (s.pty.master = false ∨ s.pty.reaped.isSome = true ∨ s.childExit.isSome = true) := by
    intro hgone
    have hexited := hholds.knows hgone
    rw [halive] at hexited
    cases hexited
  have hexit : s.childExit = none := by
    cases hchild : s.childExit with
    | none => rfl
    | some status => exact absurd (.inr (.inr (by rw [hchild]; rfl))) hnone
  have hmaster : s.pty.master = true := by
    cases hopen : s.pty.master with
    | true => rfl
    | false => exact absurd (.inl hopen) hnone
  exact (Session.writesData_iff hexit hmaster).trans hblocks

theorem writer_heard_iff_inTime :
    let s := Use.after (.spawn (.spawn ⟨80, 24, 0, 0⟩ []) false ⟨80, 24, 0, 0⟩)
      [.frame ⟨10, 3600⟩ (.attach 7 none protocolVersion false), .reap ⟨20, 3600⟩,
        .frame ⟨3000, 3600⟩ (.data [97])]
    s.WritesData ⟨3609, 3600⟩ ∧ s.AppliesResize ⟨3609, 3600⟩ := by
  intro s
  obtain ⟨hdata, hresize⟩ := writer_heard_iff ⟨80, 24, 0, 0⟩ [] false ⟨80, 24, 0, 0⟩ []
    [.reap ⟨20, 3600⟩, .frame ⟨3000, 3600⟩ (.data [97])] ⟨10, 3600⟩ ⟨3609, 3600⟩ 7 none
    protocolVersion rfl rfl
  exact ⟨(hdata rfl).mpr (by decide), hresize.mpr (by decide)⟩

/-- With the generation 0 at once, and with any other an hour later, the writer of a live child is
told `Ok`, and nothing is written. -/
theorem writer_muted :
    let s := Session.spawn (.spawn ⟨80, 24, 0, 0⟩ []) false ⟨80, 24, 0, 0⟩
    (∃ t, (Session.onFrame ⟨0, 3600⟩ (.data [97])).exec
        (s.attach ⟨0, 3600⟩ 0 false) = (.ok (), t) ∧
          t.childExit = none ∧ t.pty.exited = none ∧ t.pty.input = []) ∧
      ∃ t, (Session.onFrame ⟨3600, 3600⟩ (.data [97])).exec
        (s.attach ⟨0, 3600⟩ 7 false) = (.ok (), t) ∧
          t.childExit = none ∧ t.pty.exited = none ∧ t.pty.input = [] :=
  ⟨⟨_, rfl, rfl, rfl, rfl⟩, _, rfl, rfl, rfl, rfl⟩

end Rill.Kernel
