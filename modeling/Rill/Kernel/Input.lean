import Rill.Kernel.Steady

/-!
# Input

What DATA and RESIZE come to: written, refused with an error, or dropped
because the input lease has run out.
-/

namespace Rill.Kernel

open Lib Attach

namespace Pty

/-- A write moves all of its bytes, or fails and says why. -/
theorem writeAll_spec (p : Pty) (bytes : List UInt8) :
    (∃ q, (writeAll bytes).exec p = (.ok (), q) ∧
        (p.master = true → q.input = p.input ++ bytes)) ∨
      ∃ e q, (writeAll bytes).exec p = (.error e, q) ∧ e ≠ .dead ∧ p.turn.1.fault.isSome := by
  have hinput : p.turn.2.input = p.input := by
    unfold turn runChild
    dsimp only
    split
    case h_1 => rfl
    case h_2 => rfl
  rw [writeAll, Op.exec_get_bind]
  split
  case isTrue h =>
    refine .inl ⟨p, rfl, fun hmaster => ?_⟩
    obtain rfl : bytes = [] := by simpa [hmaster] using h
    exact (List.append_nil _).symm
  case isFalse =>
    rw [Op.exec_bind_ok (exec_takeTurn p)]
    cases hfault : p.turn.1.fault with
    | none =>
      refine .inl ⟨{ p.turn.2 with input := p.turn.2.input ++ bytes }, rfl, fun _ => ?_⟩
      rw [hinput]
    | some fault =>
      refine .inr ⟨_, _, rfl, ?_, rfl⟩
      cases fault with
      | timeout => exact Error.noConfusion
      | io => exact Error.noConfusion

theorem setWinsize_spec (p : Pty) (size : Winsize) :
    (∃ q, (setWinsize size).exec p = (.ok (), q) ∧ q.winsize = size) ∨
      ∃ e q, (setWinsize size).exec p = (.error e, q) ∧ e ≠ .dead := by
  rw [setWinsize, Op.exec_get_bind]
  split
  case isTrue => exact .inr ⟨_, _, rfl, Error.noConfusion⟩
  case isFalse =>
    rw [Op.exec_bind_ok (exec_takeTurn p)]
    split
    case isTrue => exact .inr ⟨_, _, rfl, Error.noConfusion⟩
    case isFalse => exact .inl ⟨_, rfl, rfl⟩

end Pty

namespace Session

theorem exec_onPty (m : Op Pty Error α) (s : Session) :
    (onPty m).exec s = ((m.exec s.pty).1, { s with pty := (m.exec s.pty).2 }) := rfl

/-- All of the queue is written and recorded, or an error says that it is not. -/
theorem flushLoop_spec (s : Session) (bufs : List (List UInt8)) :
    (∃ t, (flushLoop bufs).exec s = (.ok (), t) ∧ t.seq = s.seq + bufs.length ∧
        (s.pty.master = true → t.pty.input = s.pty.input ++ bufs.flatten)) ∨
      ∃ e t, (flushLoop bufs).exec s = (.error e, t) ∧ e ≠ .dead := by
  induction bufs generalizing s with
  | nil => exact .inl ⟨s, rfl, rfl, fun _ => (List.append_nil _).symm⟩
  | cons buf rest ih =>
    rw [flushLoop, Op.exec_modify_bind, Op.exec_bind, exec_onPty]
    rcases s.pty.writeAll_spec buf with ⟨q, hwrite, hinput⟩ | ⟨e, q, hwrite, he, -⟩
    · have hmaster : q.master = s.pty.master := by
        have hext := (Pty.Extends.writeAll s.pty buf s.pty (.refl _)).master
        rwa [hwrite] at hext
      dsimp only
      rw [hwrite]
      dsimp only
      rw [Op.exec_modify_bind]
      rcases ih ({ (({ s with pendingInput := rest, pty := q } : Session).record
          (.ptyWrite buf.length)) with lastDelivery := .dispatched }) with
        ⟨t, hrun, hseq, htinput⟩ | herror
      · refine .inl ⟨t, hrun, ?_, fun hm => ?_⟩
        · rw [hseq, List.length_cons]
          change s.seq + 1 + rest.length = _
          omega
        · rw [htinput (hmaster.trans hm)]
          change q.input ++ _ = _
          rw [hinput hm, List.append_assoc, List.flatten_cons]
      · exact .inr herror
    · dsimp only
      rw [hwrite]
      exact .inr ⟨_, _, rfl, he⟩

theorem expireInputLeaseIfDue_of_not_due {s : Session} {m : Moment} (h : s.leaseDue m = false) :
    s.expireInputLeaseIfDue m = s := by
  rw [expireInputLeaseIfDue, h]
  rfl

theorem leaseUntil_expire {s : Session} {m : Moment} (h : s.leaseDue m = true) :
    (s.expireInputLeaseIfDue m).leaseUntil ≠ s.leaseUntil := by
  intro heq
  rw [expireInputLeaseIfDue, h] at heq
  rw [leaseDue, ← heq] at h
  cases h

/-- DATA for a dead child is an error; with the lease run out it is dropped;
else it is written behind what was queued, or an error says why not. -/
theorem applyData_spec (s : Session) (m : Moment) (bytes : List UInt8) :
    (s.childExit.isSome ∧ (applyData m bytes).exec s = (.error .dead, s)) ∨
      (s.childExit = none ∧ (s.expireInputLeaseIfDue m).leaseBlocksInput = true ∧
        (applyData m bytes).exec s = (.ok (), s.expireInputLeaseIfDue m)) ∨
      (s.childExit = none ∧ (s.expireInputLeaseIfDue m).leaseBlocksInput = false ∧
        ((∃ t, (applyData m bytes).exec s = (.ok (), t) ∧
            t.seq = s.seq + s.pendingInput.length + 1 ∧
            (s.pty.master = true →
              t.pty.input = s.pty.input ++ s.pendingInput.flatten ++ bytes)) ∨
          ∃ e t, (applyData m bytes).exec s = (.error e, t) ∧ e ≠ .dead)) := by
  rw [applyData, Op.exec_get_bind]
  split
  case isTrue h => exact .inl ⟨h, rfl⟩
  case isFalse h =>
    refine .inr ?_
    rw [Op.exec_modify_bind, Op.exec_get_bind]
    split
    case isTrue hblocks => exact .inl ⟨by simpa using h, hblocks, rfl⟩
    case isFalse hblocks =>
      refine .inr ⟨by simpa using h, by simpa using hblocks, ?_⟩
      rw [Op.exec_modify_bind, flushInput, Op.exec_get_bind]
      rcases flushLoop_spec ({ s.expireInputLeaseIfDue m with
          lastDelivery := .pending
          pendingInput := (s.expireInputLeaseIfDue m).pendingInput ++ [bytes] })
          ((s.expireInputLeaseIfDue m).pendingInput ++ [bytes]) with ⟨t, hrun, hseq, hinput⟩ | herror
      · refine .inl ⟨t, hrun, ?_, fun hm => ?_⟩
        · rw [hseq, List.length_append]
          rfl
        · rw [hinput hm, List.flatten_append, ← List.append_assoc]
          simp [expireInputLeaseIfDue]
      · exact .inr herror

/-- RESIZE is dropped with the lease run out; else it is applied behind the
queued input, or an error says why not. -/
theorem applyResize_spec (s : Session) (m : Moment) (size : Winsize) :
    ((s.expireInputLeaseIfDue m).leaseBlocksInput = true ∧
        (applyResize m size).exec s = (.ok (), s.expireInputLeaseIfDue m)) ∨
      ((s.expireInputLeaseIfDue m).leaseBlocksInput = false ∧
        ((∃ t, (applyResize m size).exec s = (.ok (), t) ∧
            t.seq = s.seq + s.pendingInput.length + 1 ∧ t.size = size ∧ t.pty.winsize = size) ∨
          ∃ e t, (applyResize m size).exec s = (.error e, t) ∧ e ≠ .dead)) := by
  rw [applyResize, Op.exec_modify_bind, Op.exec_get_bind]
  split
  case isTrue hblocks => exact .inl ⟨hblocks, rfl⟩
  case isFalse hblocks =>
    refine .inr ⟨by simpa using hblocks, ?_⟩
    rw [Op.exec_bind, flushInput, Op.exec_get_bind]
    rcases flushLoop_spec (s.expireInputLeaseIfDue m) (s.expireInputLeaseIfDue m).pendingInput with
      ⟨t, hrun, hseq, -⟩ | ⟨e, t, hrun, he⟩
    · rw [hrun]
      dsimp only
      rw [Op.exec_modify_bind, Op.exec_bind, exec_onPty]
      dsimp only
      rcases t.pty.setWinsize_spec size with ⟨q, hset, hsize⟩ | ⟨e, q, hset, he⟩
      · rw [hset]
        refine .inl ⟨_, rfl, ?_, rfl, hsize⟩
        change t.seq + 1 = _
        rw [hseq]
        rfl
      · rw [hset]
        exact .inr ⟨_, _, rfl, he⟩
    · rw [hrun]
      exact .inr ⟨_, _, rfl, he⟩

-- ---------------------------------------------------------------------------
-- Input that does nothing
-- ---------------------------------------------------------------------------

/-- The lease has run out and there is nothing left to expire. -/
def Muted (s : Session) (m : Moment) : Prop :=
  s.leaseDue m = false ∧ s.leaseBlocksInput = true

theorem expire_eq_iff (s : Session) (m : Moment) :
    ((s.expireInputLeaseIfDue m).leaseBlocksInput = true ∧ s.expireInputLeaseIfDue m = s) ↔
      s.Muted m := by
  constructor
  · rintro ⟨hblocks, hsame⟩
    refine ⟨?_, hsame ▸ hblocks⟩
    cases hdue : s.leaseDue m with
    | false => rfl
    | true => exact absurd (congrArg leaseUntil hsame) (leaseUntil_expire hdue)
  · rintro ⟨hdue, hblocks⟩
    rw [expireInputLeaseIfDue_of_not_due hdue]
    exact ⟨hblocks, rfl⟩

/-- What the daemon goes on from. -/
def Absorbed (r : Except Error Unit) : Prop := r = .ok () ∨ r = .error .dead

theorem applyData_inert (s : Session) (m : Moment) (bytes : List UInt8) :
    (Absorbed ((applyData m bytes).exec s).1 ∧ ((applyData m bytes).exec s).2 = s) ↔
      s.childExit.isSome ∨ s.Muted m := by
  rcases applyData_spec s m bytes with ⟨hdead, hrun⟩ | ⟨halive, hblocks, hrun⟩ |
    ⟨halive, hblocks, ⟨t, hrun, hseq, -⟩ | ⟨e, t, hrun, he⟩⟩
  · rw [hrun]
    exact ⟨fun _ => .inl hdead, fun _ => ⟨.inr rfl, rfl⟩⟩
  · rw [hrun, ← expire_eq_iff, halive]
    constructor
    · exact fun h => .inr ⟨hblocks, h.2⟩
    · rintro (h | h)
      · cases h
      · exact ⟨.inl rfl, h.2⟩
  · rw [hrun, ← expire_eq_iff, halive, hblocks]
    constructor
    · rintro ⟨-, hsame⟩
      have hseq' : t.seq = s.seq := congrArg seq hsame
      omega
    · rintro (h | ⟨h, -⟩)
      · cases h
      · cases h
  · rw [hrun, ← expire_eq_iff, halive, hblocks]
    constructor
    · rintro ⟨h | h, -⟩
      · cases h
      · exact absurd (Except.error.inj h) he
    · rintro (h | ⟨h, -⟩)
      · cases h
      · cases h

theorem applyResize_inert (s : Session) (m : Moment) (size : Winsize) :
    (Absorbed ((applyResize m size).exec s).1 ∧ ((applyResize m size).exec s).2 = s) ↔
      s.Muted m := by
  rw [← expire_eq_iff]
  rcases applyResize_spec s m size with ⟨hblocks, hrun⟩ |
    ⟨hblocks, ⟨t, hrun, hseq, -⟩ | ⟨e, t, hrun, he⟩⟩
  · rw [hrun]
    exact ⟨fun h => ⟨hblocks, h.2⟩, fun h => ⟨.inl rfl, h.2⟩⟩
  · rw [hrun, hblocks]
    constructor
    · rintro ⟨-, hsame⟩
      have hseq' : t.seq = s.seq := congrArg seq hsame
      omega
    · rintro ⟨h, -⟩
      cases h
  · rw [hrun, hblocks]
    constructor
    · rintro ⟨h | h, -⟩
      · cases h
      · exact absurd (Except.error.inj h) he
    · rintro ⟨h, -⟩
      cases h

/-- A frame that is none of ATTACH's and changes nothing. -/
def Deaf (s : Session) (m : Moment) : Frame → Prop
  | .attach .. => False
  | .data _ => s.childExit.isSome ∨ s.Muted m
  | .resize .. => s.Muted m
  | .credit n => s.addCredit n = s
  | .exit _ | .refused _ | .checkpoint .. | .delta .. | .resyncRequest => True

theorem onFrame_deaf (s : Session) (m : Moment) {f : Frame} (hf : f.isAttach = false) :
    (Absorbed ((onFrame m f).exec s).1 ∧ ((onFrame m f).exec s).2 = s) ↔ s.Deaf m f := by
  cases f with
  | attach => cases hf
  | data bytes => exact applyData_inert s m bytes
  | resize cols rows pxW pxH => exact applyResize_inert s m ⟨cols, rows, pxW, pxH⟩
  | credit n => exact ⟨fun h => h.2, fun h => ⟨.inl rfl, h⟩⟩
  | exit | refused | checkpoint | delta | resyncRequest =>
    exact ⟨fun _ => trivial, fun _ => ⟨.inl rfl, rfl⟩⟩

end Session

end Rill.Kernel
