import Rill.Kernel.Graph

/-!
# What the session's calls leave alone

`Steady` is what input, resizes, credit and the clock leave of a session: its
claim, its queue and all it has read. The calls that do more are described by
equations up to it.
-/

namespace Rill.Kernel

open Lib Attach

-- ---------------------------------------------------------------------------
-- The PTY
-- ---------------------------------------------------------------------------

namespace Pty

theorem exec_takeTurn (p : Pty) : takeTurn.exec p = (.ok p.turn.1, p.turn.2) := rfl

theorem exec_tryWait (p : Pty) :
    tryWait.exec p =
      if p.reaped.isSome then (.ok p.reaped, p)
      else if p.turn.1.fault.isSome then (.error .io, p.turn.2)
      else (.ok p.turn.2.exited, { p.turn.2 with reaped := p.turn.2.exited }) := by
  rw [tryWait, Op.exec_get_bind]
  split
  case isTrue => rfl
  case isFalse =>
    rw [Op.exec_bind_ok (exec_takeTurn p)]
    split
    case isTrue => rfl
    case isFalse => rfl

/-- A child that is gone, by what is known of it, has exited. -/
def Knows (gone : Prop) (p : Pty) : Prop :=
  (p.master = false ∨ p.reaped.isSome = true ∨ gone) → p.exited.isSome = true

namespace Knows

variable {gone : Prop}

theorem turn {p : Pty} (h : p.Knows gone) : p.turn.2.Knows gone := by
  unfold Pty.turn runChild
  dsimp only
  split
  case h_1 => exact h
  case h_2 hnone =>
    intro hgone
    have hexited := h hgone
    rw [hnone] at hexited
    cases hexited

theorem takeTurn : Op.Keeps (Knows gone) takeTurn := Op.Keeps.get_bind fun _ hp => hp.turn

theorem tryWait : Op.Keeps (Knows gone) tryWait := by
  intro p h
  rw [exec_tryWait]
  split
  case isTrue => exact h
  case isFalse =>
    split
    case isTrue => exact h.turn
    case isFalse =>
      rintro (hmaster | hreaped | hgone)
      · exact h.turn (.inl hmaster)
      · exact hreaped
      · exact h.turn (.inr (.inr hgone))

theorem writeAll (bytes : List UInt8) : Op.Keeps (Knows gone) (writeAll bytes) := by
  refine Op.Keeps.bind Op.Keeps.get fun p => ?_
  refine Op.Keeps.ite (fun _ => Op.Keeps.pure _) fun _ => ?_
  refine Op.Keeps.bind takeTurn fun t => ?_
  rcases t with ⟨_, _, _ | fault, _⟩
  · exact Op.Keeps.modify fun p h => h
  · exact Op.Keeps.bind (Op.Keeps.modify fun p h => h) fun _ => Op.Keeps.throw _

theorem read (n : Nat) : Op.Keeps (Knows gone) (read n) := by
  refine Op.Keeps.bind Op.Keeps.get fun p => ?_
  refine Op.Keeps.ite (fun _ => Op.Keeps.pure _) fun _ => ?_
  refine Op.Keeps.bind takeTurn fun t => Op.Keeps.guard fun _ => ?_
  refine Op.Keeps.bind Op.Keeps.get fun q => ?_
  exact Op.Keeps.bind (Op.Keeps.modify fun p h => h) fun _ => Op.Keeps.pure _

theorem setWinsize (size : Winsize) : Op.Keeps (Knows gone) (setWinsize size) := by
  refine Op.Keeps.bind Op.Keeps.get fun p => ?_
  refine Op.Keeps.ite (fun _ => Op.Keeps.throw _) fun _ => ?_
  refine Op.Keeps.bind takeTurn fun t => Op.Keeps.guard fun _ => ?_
  exact Op.Keeps.modify fun p h => h

theorem terminate : Op.Keeps (Knows gone) terminate := by
  have hkilled : ∀ p : Pty, (p.exited <|> some 9).isSome = true := by
    intro p
    cases p.exited with
    | none => rfl
    | some status => rfl
  refine Op.Keeps.bind Op.Keeps.get fun p => ?_
  refine Op.Keeps.ite (fun _ => Op.Keeps.pure _) fun _ => ?_
  refine Op.Keeps.bind takeTurn fun t => ?_
  refine Op.Keeps.bind (Op.Keeps.modify fun p _ _ => hkilled p) fun _ => ?_
  rcases t with ⟨_, _, _ | _ | _, _⟩
  · refine Op.Keeps.modify fun p h => ?_
    rintro (hmaster | hreaped | hgone)
    · exact h (.inl hmaster)
    · exact hreaped
    · exact h (.inr (.inr hgone))
  · exact Op.Keeps.throw _
  · exact Op.Keeps.throw _

end Knows

/-- The child may have written and exited, in that order; nothing was read. -/
structure Extends (p q : Pty) : Prop where
  taken : q.taken = p.taken
  unread : p.unread <+: q.unread
  master : q.master = p.master
  exited : p.exited.isSome → q.exited = p.exited ∧ q.unread = p.unread
  backlog : q.backlog ≤ p.backlog
  knows : ∀ gone, p.Knows gone → q.Knows gone

namespace Extends

theorem refl (p : Pty) : Extends p p :=
  ⟨rfl, List.prefix_refl _, rfl, fun _ => ⟨rfl, rfl⟩, Nat.le_refl _, fun _ h => h⟩

theorem trans {p q r : Pty} (h : Extends p q) (h' : Extends q r) : Extends p r where
  taken := h'.taken.trans h.taken
  unread := h.unread.trans h'.unread
  master := h'.master.trans h.master
  exited hp := by
    obtain ⟨hq, hunread⟩ := h.exited hp
    obtain ⟨hr, hunread'⟩ := h'.exited (by rwa [hq])
    exact ⟨hr.trans hq, hunread'.trans hunread⟩
  backlog := Nat.le_trans h'.backlog h.backlog
  knows gone hp := h'.knows gone (h.knows gone hp)

theorem turn (p : Pty) : Extends p p.turn.2 := by
  have hknows : ∀ gone, p.Knows gone → p.turn.2.Knows gone := fun _ h => h.turn
  have hturns : (p.turns.map fun t => t.output.length).sum =
      (p.turns.headD .quiet).output.length + (p.turns.tail.map fun t => t.output.length).sum := by
    cases p.turns with
    | nil => rfl
    | cons t turns => rfl
  unfold Pty.turn runChild at hknows ⊢
  dsimp only at hknows ⊢
  split at hknows
  case h_1 =>
    refine ⟨rfl, List.prefix_refl _, rfl, fun _ => ⟨rfl, rfl⟩, ?_, hknows⟩
    simp only [Pty.backlog]
    omega
  case h_2 hp =>
    refine ⟨rfl, List.prefix_append _ _, rfl, fun h => ?_, ?_, hknows⟩
    · rw [hp] at h
      cases h
    · simp only [Pty.backlog, List.length_append]
      omega

theorem takeTurn (p₀ : Pty) : Op.Keeps (Extends p₀) takeTurn :=
  Op.Keeps.get_bind fun p hp => hp.trans (turn p)

theorem tryWait (p₀ : Pty) : Op.Keeps (Extends p₀) tryWait := by
  intro p h
  have hknows : ∀ gone, p₀.Knows gone → (Pty.tryWait.exec p).2.Knows gone :=
    fun gone hp => Knows.tryWait p (h.knows gone hp)
  rw [exec_tryWait] at hknows ⊢
  by_cases hreaped : p.reaped.isSome = true
  · rw [if_pos hreaped]
    exact h
  · rw [if_neg hreaped] at hknows ⊢
    have hturn := h.trans (turn p)
    split at hknows
    case isTrue hfault =>
      rw [if_pos hfault]
      exact hturn
    case isFalse hfault =>
      rw [if_neg hfault]
      exact { hturn with knows := hknows }

theorem writeAll (p₀ : Pty) (bytes : List UInt8) : Op.Keeps (Extends p₀) (writeAll bytes) := by
  refine Op.Keeps.bind Op.Keeps.get fun p => ?_
  refine Op.Keeps.ite (fun _ => Op.Keeps.pure _) fun _ => ?_
  refine Op.Keeps.bind (takeTurn p₀) fun t => ?_
  rcases t with ⟨_, _, _ | fault, _⟩
  · exact Op.Keeps.modify fun p h => { h with }
  · exact Op.Keeps.bind (Op.Keeps.modify fun p h => { h with }) fun _ => Op.Keeps.throw _

theorem setWinsize (p₀ : Pty) (size : Winsize) : Op.Keeps (Extends p₀) (setWinsize size) := by
  refine Op.Keeps.bind Op.Keeps.get fun p => ?_
  refine Op.Keeps.ite (fun _ => Op.Keeps.throw _) fun _ => ?_
  refine Op.Keeps.bind (takeTurn p₀) fun t => Op.Keeps.guard fun _ => ?_
  exact Op.Keeps.modify fun p h => { h with }

end Extends

theorem terminate_taken (p : Pty) : (terminate.exec p).2.taken = p.taken := by
  have hkeeps : Op.Keeps (fun q : Pty => q.taken = p.taken) terminate := by
    refine Op.Keeps.bind Op.Keeps.get fun q => ?_
    refine Op.Keeps.ite (fun _ => Op.Keeps.pure _) fun _ => ?_
    refine Op.Keeps.bind (Op.Keeps.get_bind fun q hq => (Extends.turn q).taken.trans hq) fun t => ?_
    refine Op.Keeps.bind (Op.Keeps.modify fun q hq => hq) fun _ => ?_
    rcases t with ⟨_, _, _ | _ | _, _⟩
    · exact Op.Keeps.modify fun q hq => hq
    · exact Op.Keeps.throw _
    · exact Op.Keeps.throw _
  exact hkeeps p rfl

/-- `got` was read, from the front of what the child had written by then. -/
structure Gives (p q : Pty) (got : List UInt8) : Prop where
  taken : q.taken = p.taken ++ got
  unread : p.unread <+: got ++ q.unread
  master : q.master = p.master
  exited : p.exited.isSome → q.exited = p.exited ∧ got ++ q.unread = p.unread
  backlog : q.backlog + got.length ≤ p.backlog
  knows : ∀ gone, p.Knows gone → q.Knows gone

theorem exec_read (p : Pty) (n : Nat) :
    (read n).exec p =
      if !p.master then (.ok [], p)
      else if p.turn.1.fault.isSome then (.error .io, p.turn.2)
      else
        let got := p.turn.2.unread.take (p.turn.1.capped n)
        (.ok got, { p.turn.2 with
          unread := p.turn.2.unread.drop got.length
          taken := p.turn.2.taken ++ got }) := by
  rw [read, Op.exec_get_bind]
  split
  case isTrue => rfl
  case isFalse =>
    rw [Op.exec_bind_ok (exec_takeTurn p)]
    split
    case isTrue => rfl
    case isFalse => rfl

theorem Extends.toGives {p q : Pty} (h : Extends p q) : Gives p q [] :=
  ⟨by rw [h.taken, List.append_nil], h.unread, h.master, h.exited, h.backlog, h.knows⟩

theorem Gives.toExtends {p q : Pty} (h : Gives p q []) : Extends p q :=
  ⟨by rw [h.taken, List.append_nil], h.unread, h.master, h.exited, h.backlog, h.knows⟩

theorem capped_le (t : Turn) (n : Nat) : t.capped n ≤ n := by
  unfold Turn.capped
  split
  · exact Nat.min_le_right _ _
  · exact Nat.le_refl _

/-- A read fails, or gives what it says. -/
theorem read_gives (p : Pty) (n : Nat) :
    (∃ e q, (read n).exec p = (.error e, q) ∧ Extends p q) ∨
      ∃ got q, (read n).exec p = (.ok got, q) ∧ got.length ≤ n ∧ Gives p q got := by
  rw [exec_read]
  split
  case isTrue => exact .inr ⟨[], p, rfl, Nat.zero_le n, (Extends.refl p).toGives⟩
  case isFalse =>
    have h := Extends.turn p
    split
    case isTrue => exact .inl ⟨_, _, rfl, h⟩
    case isFalse =>
      refine .inr ⟨_, _, rfl, Nat.le_trans (List.length_take_le _ _) (capped_le _ _), ?_⟩
      have hsplit : p.turn.2.unread.take (p.turn.1.capped n) ++
          p.turn.2.unread.drop (p.turn.2.unread.take (p.turn.1.capped n)).length =
            p.turn.2.unread := by
        conv => rhs; rw [← List.take_append_drop (p.turn.1.capped n) p.turn.2.unread]
        rw [List.length_take]
        congr 1
        rcases Nat.le_total (p.turn.1.capped n) p.turn.2.unread.length with hle | hle
        · rw [Nat.min_eq_left hle]
        · rw [Nat.min_eq_right hle, List.drop_length, List.drop_of_length_le hle]
      refine ⟨?_, ?_, h.master, fun hp => ⟨(h.exited hp).1, ?_⟩, ?_, h.knows⟩
      · rw [h.taken]
      · rw [hsplit]
        exact h.unread
      · rw [hsplit]
        exact (h.exited hp).2
      · have hlen := congrArg List.length hsplit
        rw [List.length_append] at hlen
        have hbacklog := h.backlog
        simp only [Pty.backlog] at hbacklog ⊢
        omega

end Pty

-- ---------------------------------------------------------------------------
-- The session
-- ---------------------------------------------------------------------------

namespace Session

structure Steady (s t : Session) : Prop where
  pty : s.pty.Extends t.pty
  ephemeral : t.ephemeral = s.ephemeral
  ring : t.ring = s.ring
  bytesDelivered : t.bytesDelivered = s.bytesDelivered
  attachGeneration : t.attachGeneration = s.attachGeneration
  outbound : t.outbound = s.outbound
  childExit : t.childExit = s.childExit
  exitDelivered : t.exitDelivered = s.exitDelivered
  resyncPending : t.resyncPending = s.resyncPending
  observers : t.observers = s.observers

namespace Steady

theorem refl (s : Session) : Steady s s := ⟨.refl _, rfl, rfl, rfl, rfl, rfl, rfl, rfl, rfl, rfl⟩

theorem trans {s t u : Session} (h : Steady s t) (h' : Steady t u) : Steady s u where
  pty := h.pty.trans h'.pty
  ephemeral := h'.ephemeral.trans h.ephemeral
  ring := h'.ring.trans h.ring
  bytesDelivered := h'.bytesDelivered.trans h.bytesDelivered
  attachGeneration := h'.attachGeneration.trans h.attachGeneration
  outbound := h'.outbound.trans h.outbound
  childExit := h'.childExit.trans h.childExit
  exitDelivered := h'.exitDelivered.trans h.exitDelivered
  resyncPending := h'.resyncPending.trans h.resyncPending
  observers := h'.observers.trans h.observers

theorem onPty {s₀ : Session} {m : Op Pty Error α} (hm : ∀ p, Op.Keeps (Pty.Extends p) m) :
    Op.Keeps (Steady s₀) (onPty m) := by
  refine Op.Keeps.on fun s h => ?_
  exact { h with pty := hm s₀.pty s.pty h.pty }

theorem record {s₀ s : Session} (h : Steady s₀ s) (event : IoEvent) :
    Steady s₀ (s.record event) := { h with }

theorem expireInputLeaseIfDue {s₀ s : Session} (h : Steady s₀ s) (m : Moment) :
    Steady s₀ (s.expireInputLeaseIfDue m) := { h with }

theorem flushLoop (s₀ : Session) (bufs : List (List UInt8)) :
    Op.Keeps (Steady s₀) (flushLoop bufs) := by
  induction bufs with
  | nil => exact Op.Keeps.pure _
  | cons buf rest ih =>
    refine Op.Keeps.bind (Op.Keeps.modify fun s h => { h with }) fun _ => ?_
    refine Op.Keeps.bind (onPty fun p => Pty.Extends.writeAll p buf) fun _ => ?_
    refine Op.Keeps.bind (Op.Keeps.modify fun s h => ?_) fun _ => ih
    exact { h.record (.ptyWrite buf.length) with }

theorem flushInput (s₀ : Session) : Op.Keeps (Steady s₀) flushInput :=
  Op.Keeps.bind Op.Keeps.get fun s => flushLoop s₀ s.pendingInput

theorem applyResize (s₀ : Session) (m : Moment) (size : Winsize) :
    Op.Keeps (Steady s₀) (applyResize m size) := by
  refine Op.Keeps.bind (Op.Keeps.modify fun s h => h.expireInputLeaseIfDue m) fun _ => ?_
  refine Op.Keeps.bind Op.Keeps.get fun s => ?_
  refine Op.Keeps.ite (fun _ => Op.Keeps.pure _) fun _ => ?_
  refine Op.Keeps.bind (flushInput s₀) fun _ => ?_
  refine Op.Keeps.bind (Op.Keeps.modify fun s h => { h with }) fun _ => ?_
  refine Op.Keeps.bind (onPty fun p => Pty.Extends.setWinsize p size) fun _ => ?_
  exact Op.Keeps.modify fun s h => h.record _

theorem applyData (s₀ : Session) (m : Moment) (bytes : List UInt8) :
    Op.Keeps (Steady s₀) (applyData m bytes) := by
  refine Op.Keeps.bind Op.Keeps.get fun s => Op.Keeps.guard fun _ => ?_
  refine Op.Keeps.bind (Op.Keeps.modify fun s h => h.expireInputLeaseIfDue m) fun _ => ?_
  refine Op.Keeps.bind Op.Keeps.get fun s => ?_
  refine Op.Keeps.ite (fun _ => Op.Keeps.pure _) fun _ => ?_
  exact Op.Keeps.bind (Op.Keeps.modify fun s h => { h with }) fun _ => flushInput s₀

end Steady

theorem onFrame_steady (s : Session) (m : Moment) {frame : Frame} (h : frame.isAttach = false) :
    Steady s ((onFrame m frame).exec s).2 := by
  cases frame with
  | attach => cases h
  | data bytes => exact Steady.applyData s m bytes s (.refl s)
  | resize cols rows pxW pxH => exact Steady.applyResize s m ⟨cols, rows, pxW, pxH⟩ s (.refl s)
  | credit n => exact { Steady.refl s with }
  | exit | refused | checkpoint | delta | resyncRequest => exact .refl s

theorem detach_taken (s : Session) : s.detach.pty.taken = s.pty.taken := by
  rw [detach]
  dsimp only
  split
  case isTrue => exact s.pty.terminate_taken
  case isFalse => rfl

theorem attach_credit (s : Session) (m : Moment) (generation : UInt64) (observe : Bool) :
    (s.attach m generation observe).credit = s.credit := by
  unfold attach
  split
  case isTrue => rfl
  case isFalse =>
    split
    case isTrue => rfl
    case isFalse => rfl

theorem flushLoop_credit (k : Nat) (bufs : List (List UInt8)) :
    Op.Keeps (fun s : Session => s.credit = k) (flushLoop bufs) := by
  induction bufs with
  | nil => exact Op.Keeps.pure _
  | cons buf rest ih =>
    refine Op.Keeps.bind (Op.Keeps.modify fun s h => h) fun _ => ?_
    refine Op.Keeps.bind (Op.Keeps.on fun s h => h) fun _ => ?_
    exact Op.Keeps.bind (Op.Keeps.modify fun s h => h) fun _ => ih

/-- Only CREDIT changes the credit. -/
theorem onFrame_credit (s : Session) (m : Moment) (frame : Frame) :
    ((onFrame m frame).exec s).2.credit =
      match frame with
      | .credit n => min (s.credit + n.toNat) u64Max
      | _ => s.credit := by
  let I (t : Session) : Prop := t.credit = s.credit
  have hflush : Op.Keeps I flushInput :=
    Op.Keeps.bind Op.Keeps.get fun t => flushLoop_credit s.credit t.pendingInput
  have hexpire : Op.Keeps I (modify fun t => t.expireInputLeaseIfDue m : Op Session Error Unit) :=
    Op.Keeps.modify fun t h => h
  cases frame with
  | attach generation sessionId protocol observe => exact attach_credit s m generation observe
  | credit n => rfl
  | resize cols rows pxW pxH =>
    have hkeeps : Op.Keeps I (applyResize m ⟨cols, rows, pxW, pxH⟩) := by
      refine Op.Keeps.bind hexpire fun _ => Op.Keeps.bind Op.Keeps.get fun t => ?_
      refine Op.Keeps.ite (fun _ => Op.Keeps.pure _) fun _ => Op.Keeps.bind hflush fun _ => ?_
      refine Op.Keeps.bind (Op.Keeps.modify fun t h => h) fun _ => ?_
      refine Op.Keeps.bind (Op.Keeps.on fun t h => h) fun _ => ?_
      exact Op.Keeps.modify fun t h => h
    exact hkeeps s rfl
  | data bytes =>
    have hkeeps : Op.Keeps I (applyData m bytes) := by
      refine Op.Keeps.bind Op.Keeps.get fun t => Op.Keeps.guard fun _ => ?_
      refine Op.Keeps.bind hexpire fun _ => Op.Keeps.bind Op.Keeps.get fun t => ?_
      refine Op.Keeps.ite (fun _ => Op.Keeps.pure _) fun _ => ?_
      exact Op.Keeps.bind (Op.Keeps.modify fun t h => h) fun _ => hflush
    exact hkeeps s rfl
  | exit | refused | checkpoint | delta | resyncRequest => rfl

theorem onFrame_attach (s : Session) (m : Moment) (generation : UInt64) (sessionId : Option UInt64)
    (protocol : UInt8) (observe : Bool) :
    (onFrame m (.attach generation sessionId protocol observe)).exec s =
      (.ok (), s.attach m generation observe) := rfl

/-- Either the exit is not seen, or it is for the first time. -/
theorem pollChild_spec (s : Session) :
    (∃ r t, pollChild.exec s = (r, t) ∧ Steady s t ∧ r ≠ .ok true) ∨
      ∃ t status, pollChild.exec s = (.ok true, t.observeExit status) ∧ Steady s t ∧
        s.childExit = none ∧ Pty.tryWait.exec s.pty = (.ok (some status), t.pty) ∧
        t.pty.reaped = some status ∧
        (s.pty.reaped = none → t.pty = { s.pty.turn.2 with reaped := some status } ∧
          s.pty.turn.2.exited = some status) := by
  rw [pollChild, Op.exec_get_bind]
  split
  case isTrue => exact .inl ⟨_, _, rfl, .refl s, by simp⟩
  case isFalse h =>
    have hexit : s.childExit = none := by simpa using h
    have hkeeps : Op.Keeps (Steady s) (onPty Pty.tryWait) := Steady.onPty Pty.Extends.tryWait
    have hsteady := hkeeps s (.refl s)
    have hrun : (onPty Pty.tryWait).exec s =
        ((Pty.tryWait.exec s.pty).1, { s with pty := (Pty.tryWait.exec s.pty).2 }) := rfl
    rw [hrun] at hsteady
    rcases hwait : Pty.tryWait.exec s.pty with ⟨e | _ | status, p⟩
    · rw [hwait] at hrun hsteady
      exact .inl ⟨_, _, Op.exec_bind_error hrun _, hsteady, by simp⟩
    · rw [hwait] at hrun hsteady
      exact .inl ⟨_, _, Op.exec_bind_ok hrun _, hsteady, by simp⟩
    · rw [hwait] at hrun hsteady
      refine .inr ⟨{ s with pty := p }, status, Op.exec_bind_ok hrun _, hsteady, hexit, rfl, ?_⟩
      rw [Pty.exec_tryWait] at hwait
      split at hwait
      case isTrue hreaped =>
        obtain ⟨hst, rfl⟩ := Prod.mk.inj hwait
        have hst : s.pty.reaped = some status := Except.ok.inj hst
        exact ⟨hst, fun hnone => by rw [hnone] at hst; cases hst⟩
      case isFalse =>
        split at hwait
        case isTrue => cases hwait
        case isFalse =>
          obtain ⟨hst, rfl⟩ := Prod.mk.inj hwait
          have hst : s.pty.turn.2.exited = some status := Except.ok.inj hst
          exact ⟨hst, fun _ => ⟨by rw [hst], hst⟩⟩

/-- As `pollChild_spec`, after the lease was looked at. -/
theorem reap_ok {s t : Session} {m : Moment} {seen : Bool}
    (h : (reap m).exec s = (.ok seen, t)) :
    (seen = false ∧ Steady s t) ∨
      ∃ u status, t = u.observeExit status ∧ Steady s u ∧ s.childExit = none ∧
        Pty.tryWait.exec s.pty = (.ok (some status), u.pty) ∧ u.pty.reaped = some status ∧
        (s.pty.reaped = none → u.pty = { s.pty.turn.2 with reaped := some status } ∧
          s.pty.turn.2.exited = some status) := by
  have hexpire := (Steady.refl s).expireInputLeaseIfDue m
  rw [reap, Op.exec_modify_bind] at h
  rcases pollChild_spec (s.expireInputLeaseIfDue m) with
    ⟨r, u, hrun, hsteady, hr⟩ | ⟨u, status, hrun, hsteady, halive, hwait, hreaped, hturn⟩
  · rw [hrun] at h
    obtain ⟨rfl, rfl⟩ := Prod.mk.inj h
    refine .inl ⟨?_, hexpire.trans hsteady⟩
    cases seen with
    | false => rfl
    | true => exact absurd rfl hr
  · rw [hrun] at h
    obtain ⟨-, rfl⟩ := Prod.mk.inj h
    exact .inr ⟨u, status, rfl, hexpire.trans hsteady, hexpire.childExit ▸ halive, hwait, hreaped,
      hturn⟩

theorem exec_onPty_read (s : Session) (n : Nat) :
    (onPty (Pty.read n)).exec s =
      (((Pty.read n).exec s.pty).1, { s with pty := ((Pty.read n).exec s.pty).2 }) := rfl

/-- Either nothing is read, or `got` is and goes into the history. -/
theorem drainPtyAtMost_spec (s : Session) (max : Option Nat) :
    (∃ r t, (drainPtyAtMost max).exec s = (r, t) ∧ Steady s t ∧ ∀ got, r ≠ .ok (some got)) ∨
      ∃ got p, (drainPtyAtMost max).exec s = (.ok (some got), ({ s with pty := p }).deliver got) ∧
        got ≠ [] ∧ got.length ≤ min (max.getD readBuf) readBuf ∧ s.pty.Gives p got ∧
        s.childExit = none := by
  rw [drainPtyAtMost, Op.exec_get_bind]
  split
  case isTrue => exact .inl ⟨_, _, rfl, .refl s, by simp⟩
  case isFalse h =>
    have hexit : s.childExit = none := by simpa using h
    dsimp only
    split
    case isTrue => exact .inl ⟨_, _, rfl, { Steady.refl s with }, by simp⟩
    case isFalse =>
      have hrun := exec_onPty_read s (min (max.getD readBuf) readBuf)
      rcases s.pty.read_gives (min (max.getD readBuf) readBuf) with
        ⟨e, q, hread, hq⟩ | ⟨got, q, hread, hlen, hq⟩
      · rw [hread] at hrun
        exact .inl ⟨_, _, Op.exec_bind_error hrun _, { Steady.refl s with pty := hq }, by simp⟩
      · rw [hread] at hrun
        cases got with
        | nil =>
          exact .inl ⟨_, _, Op.exec_bind_ok hrun _,
            { Steady.refl s with pty := hq.toExtends }, by simp⟩
        | cons b got =>
          exact .inr ⟨b :: got, q, Op.exec_bind_ok hrun _, List.cons_ne_nil _ _, hlen, hq, hexit⟩

/-- As `drainPtyAtMost_spec`, for the read that the session's credit bounds. -/
theorem onPtyReadable_spec (s : Session) :
    (∃ r t, onPtyReadable.exec s = (r, t) ∧ Steady s t ∧ t.credit = s.credit ∧
        ∀ n > 0, r ≠ .ok n) ∨
      ∃ got p, onPtyReadable.exec s =
          (.ok got.length, ({ s with pty := p }).deliverQueued s.pty.taken.length got) ∧
        got ≠ [] ∧ got.length ≤ min s.credit readBuf ∧ s.pty.Gives p got := by
  rw [onPtyReadable, Op.exec_get_bind]
  split
  case isTrue => exact .inl ⟨_, _, rfl, { Steady.refl s with }, rfl, by simp; omega⟩
  case isFalse =>
    have hrun := exec_onPty_read s (min s.credit readBuf)
    rcases s.pty.read_gives (min s.credit readBuf) with
      ⟨e, q, hread, hq⟩ | ⟨got, q, hread, hlen, hq⟩
    · rw [hread] at hrun
      exact .inl ⟨_, _, Op.exec_bind_error hrun _, { Steady.refl s with pty := hq }, rfl, by simp⟩
    · rw [hread] at hrun
      cases got with
      | nil =>
        refine .inl ⟨_, _, Op.exec_bind_ok hrun _,
          { Steady.refl s with pty := hq.toExtends }, rfl, ?_⟩
        rintro n hn h
        cases h
        exact absurd hn (Nat.lt_irrefl 0)
      | cons b got =>
        exact .inr ⟨b :: got, q, Op.exec_bind_ok hrun _, List.cons_ne_nil _ _, hlen, hq⟩

/-- The next read finds nothing, or the system lets it have nothing. -/
def Parched (s : Session) : Prop := s.pty.turn.1.limit = some 0 ∨ s.pty.turn.2.unread = []

theorem parched_of_read {s : Session} {n : Nat} {q : Pty} (hopen : s.pty.master = true) (hn : 0 < n)
    (h : (Pty.read n).exec s.pty = (.ok [], q)) : s.Parched := by
  rw [Pty.exec_read, hopen, if_neg (by simp)] at h
  split at h
  case isTrue => cases h
  case isFalse =>
    have hnone : s.pty.turn.2.unread.take (s.pty.turn.1.capped n) = [] :=
      Except.ok.inj (Prod.mk.inj h).1
    rcases List.take_eq_nil_iff.mp hnone with hzero | hempty
    · left
      unfold Turn.capped at hzero
      split at hzero
      case h_1 limit hlimit =>
        rw [hlimit]
        congr 1
        omega
      case h_2 => omega
    · exact .inr hempty

/-- A drain of a live child's leaf that brings nothing. -/
theorem drainPtyAtMost_none {s t : Session} {max : Option Nat} (halive : s.childExit = none)
    (hopen : s.pty.master = true) (hmax : max ≠ some 0)
    (h : (drainPtyAtMost max).exec s = (.ok none, t)) : s.Parched := by
  have hcap : 0 < min (max.getD readBuf) readBuf := by
    cases max with
    | none => decide
    | some n =>
      have hn : n ≠ 0 := fun hn => hmax (congrArg some hn)
      exact Nat.lt_min.mpr ⟨Nat.pos_of_ne_zero hn, by decide⟩
  rw [drainPtyAtMost, Op.exec_get_bind, halive, if_neg (by simp)] at h
  dsimp only at h
  rw [if_neg (Nat.ne_of_gt hcap)] at h
  have hrun := exec_onPty_read s (min (max.getD readBuf) readBuf)
  rcases hread : (Pty.read (min (max.getD readBuf) readBuf)).exec s.pty with ⟨e | got, q⟩
  · rw [hread] at hrun
    rw [Op.exec_bind_error hrun] at h
    cases h
  · rw [hread] at hrun
    rw [Op.exec_bind_ok hrun] at h
    cases got with
    | nil => exact parched_of_read hopen hcap hread
    | cons b got => cases h

theorem onPtyReadable_zero {s t : Session} (hopen : s.pty.master = true) (hcredit : 0 < s.credit)
    (h : onPtyReadable.exec s = (.ok 0, t)) : s.Parched := by
  have hcap : 0 < min s.credit readBuf := Nat.lt_min.mpr ⟨hcredit, by decide⟩
  rw [onPtyReadable, Op.exec_get_bind, if_neg (Nat.ne_of_gt hcredit)] at h
  have hrun := exec_onPty_read s (min s.credit readBuf)
  rcases hread : (Pty.read (min s.credit readBuf)).exec s.pty with ⟨e | got, q⟩
  · rw [hread] at hrun
    rw [Op.exec_bind_error hrun] at h
    cases h
  · rw [hread] at hrun
    rw [Op.exec_bind_ok hrun] at h
    cases got with
    | nil => exact parched_of_read hopen hcap hread
    | cons b got => cases h

end Session

end Rill.Kernel
