import Rill.Kernel.Graph
import Rill.Lib.Couple

/-!
# Leaves that differ in what their child writes

Two leaves are alike when their children write as much at the same times and
exit alike, whatever the bytes are. What the kernel does with one it does with
the other: the results are the same but for the bytes read, and the leaves stay
alike.
-/

namespace Rill.Kernel

open Lib Lib.Op Attach

/-- Turns that differ in the bytes the child writes alone. -/
structure Turn.Alike (t u : Turn) : Prop where
  output : t.output.length = u.output.length
  exit : t.exit = u.exit
  fault : t.fault = u.fault
  limit : t.limit = u.limit

def SameLength (a b : List UInt8) : Prop := a.length = b.length

theorem SameLength.eq {a b : List UInt8} (h : SameLength a b) : a.length = b.length := h

namespace Pty

structure Alike (p q : Pty) : Prop where
  turns : List.Forall₂ Turn.Alike p.turns q.turns
  unread : p.unread.length = q.unread.length
  exited : p.exited = q.exited
  reaped : p.reaped = q.reaped
  master : p.master = q.master

/-- `m` does alike on PTYs that are alike. -/
abbrev Mirrors (Q : α → α → Prop) (m : Op Pty Error α) : Prop :=
  Couples (fun _ => False) Alike Q m m

namespace Alike

variable {p q : Pty}

theorem backlog (h : Alike p q) : p.backlog = q.backlog := by
  have hturns : ∀ {l l' : List Turn}, List.Forall₂ Turn.Alike l l' →
      l.map (fun t => t.output.length) = l'.map fun t => t.output.length := by
    intro l l' hl
    induction hl with
    | nil => rfl
    | cons ht _ ih => rw [List.map_cons, List.map_cons, ht.output, ih]
  rw [Pty.backlog, Pty.backlog, h.unread, hturns h.turns]

theorem runChild (h : Alike p q) {t u : Turn} (ht : t.Alike u) : Alike (p.runChild t) (q.runChild u) := by
  unfold Pty.runChild
  rw [h.exited]
  cases q.exited with
  | some _ => exact h
  | none => exact { h with
      unread := by rw [List.length_append, List.length_append, h.unread, ht.output]
      exited := ht.exit }

theorem turn (h : Alike p q) : p.turn.1.Alike q.turn.1 ∧ Alike p.turn.2 q.turn.2 := by
  have hturns := h.turns
  have hhead : (p.turns.headD .quiet).Alike (q.turns.headD .quiet) ∧
      List.Forall₂ Turn.Alike p.turns.tail q.turns.tail := by
    generalize p.turns = l at hturns
    generalize q.turns = l' at hturns
    cases hturns with
    | nil => exact ⟨⟨rfl, rfl, rfl, rfl⟩, .nil⟩
    | cons ht hl => exact ⟨ht, hl⟩
  have hrest : Alike { p with turns := p.turns.tail } { q with turns := q.turns.tail } :=
    { h with turns := hhead.2 }
  exact ⟨hhead.1, hrest.runChild hhead.1⟩

theorem takeTurn : Mirrors Turn.Alike takeTurn :=
  fun _ _ h => .ok h.turn.1 h.turn.2

theorem tryWait : Mirrors Eq tryWait := by
  refine .get_bind fun p q h => ?_
  rw [h.reaped]
  refine Couples.ite .rfl (fun _ => .pure rfl) (fun _ => ?_) p q h
  refine .bind takeTurn fun t u ht => .guard (by rw [ht.fault]) fun _ => ?_
  refine .get_bind fun p q h => ?_
  rw [h.exited]
  exact Couples.bind (.modify fun _ _ h => { h with reaped := rfl }) (fun _ _ _ => .pure rfl) p q h

theorem writeAll (bytes : List UInt8) : Mirrors Eq (writeAll bytes) := by
  refine .get_bind fun p q h => ?_
  rw [h.master]
  refine Couples.ite .rfl (fun _ => .pure rfl) (fun _ => ?_) p q h
  refine .bind takeTurn fun t u ht => ?_
  rw [ht.fault]
  cases u.fault with
  | none => exact .modify fun _ _ h => { h with }
  | some fault =>
    exact .bind (.modify fun _ _ h => { h with }) fun _ _ _ => .throw _

theorem read (n : Nat) : Mirrors SameLength (read n) := by
  refine .get_bind fun p q h => ?_
  rw [h.master]
  have hempty : SameLength [] [] := rfl
  refine Couples.ite .rfl (fun _ => .pure hempty) (fun _ => ?_) p q h
  refine .bind takeTurn fun t u ht => .guard (by rw [ht.fault]) fun _ => ?_
  refine .get_bind fun p q h => ?_
  have hcapped : t.capped n = u.capped n := by rw [Turn.capped, Turn.capped, ht.limit]
  have hlen : SameLength (p.unread.take (t.capped n)) (q.unread.take (u.capped n)) := by
    rw [SameLength, List.length_take, List.length_take, h.unread, hcapped]
  refine Couples.bind (.modify fun p q h => ?_) (fun _ _ _ => .pure hlen) p q h
  exact { h with unread := by rw [List.length_drop, List.length_drop, h.unread, hlen.eq] }

theorem setWinsize (size : Winsize) : Mirrors Eq (setWinsize size) := by
  refine .get_bind fun p q h => ?_
  rw [h.master]
  refine Couples.ite .rfl (fun _ => .throw _) (fun _ => ?_) p q h
  refine .bind takeTurn fun t u ht => .guard (by rw [ht.fault]) fun _ => ?_
  exact .modify fun _ _ h => { h with }

theorem terminate : Mirrors Eq terminate := by
  refine .get_bind fun p q h => ?_
  rw [h.reaped]
  refine Couples.ite .rfl (fun _ => .pure rfl) (fun _ => ?_) p q h
  refine .bind takeTurn fun t u ht => ?_
  refine .bind (.modify fun p q h => { h with
    unread := rfl
    exited := by rw [h.exited]
    master := rfl }) fun _ _ _ => ?_
  rw [ht.fault]
  cases u.fault with
  | none => exact .modify fun _ _ h => { h with reaped := h.exited }
  | some fault => cases fault <;> exact .throw _

end Alike

end Pty

namespace Session

/-- What a session does next depends on no more than this. -/
structure Alike (s t : Session) : Prop where
  pty : s.pty.Alike t.pty
  ring : SameLength s.ring.data t.ring.data ∧ s.ring.cap = t.ring.cap
  ephemeral : s.ephemeral = t.ephemeral
  attachGeneration : s.attachGeneration = t.attachGeneration
  credit : s.credit = t.credit
  pendingInput : s.pendingInput = t.pendingInput
  childExit : s.childExit = t.childExit
  resyncPending : s.resyncPending = t.resyncPending
  leaseGeneration : s.leaseGeneration = t.leaseGeneration
  leaseNonce : s.leaseNonce = t.leaseNonce
  leaseUntil : s.leaseUntil = t.leaseUntil

abbrev Mirrors (Q : α → α → Prop) (m : Op Session Error α) : Prop :=
  Couples (fun _ => False) Alike Q m m

namespace Alike

variable {s t : Session}

theorem onPty {m : Op Pty Error α} (h : Pty.Mirrors Q m) : Mirrors Q (onPty m) :=
  .on h (fun _ _ h => h.pty) fun _ _ h _ _ hpty => { h with pty := hpty }

-- ---------------------------------------------------------------------------
-- Lifecycle
-- ---------------------------------------------------------------------------

theorem pollChild : Mirrors Eq pollChild := by
  refine .get_bind fun s t h => ?_
  rw [h.childExit]
  refine Couples.ite .rfl (fun _ => .pure rfl) (fun _ => ?_) s t h
  refine .bind (onPty Pty.Alike.tryWait) fun status _ heq => ?_
  subst heq
  cases status with
  | none => exact .pure rfl
  | some status => exact .bind (.modify fun _ _ h => { h with childExit := rfl }) fun _ _ _ => .pure rfl

theorem release (h : Alike s t) : Alike s.release t.release :=
  { h with attachGeneration := rfl, credit := rfl, pendingInput := rfl }

theorem detach (h : Alike s t) : Alike s.detach t.detach := by
  have hdead : (Pty.terminate.exec s.pty).2.Alike (Pty.terminate.exec t.pty).2 := by
    have hends := Pty.Alike.terminate s.pty t.pty h.pty
    generalize Pty.terminate.exec s.pty = p at hends
    generalize Pty.terminate.exec t.pty = q at hends
    cases hends with
    | ok _ hpty => exact hpty
    | error _ hpty => exact hpty
    | left hbad => exact hbad.elim
    | right hbad => exact hbad.elim
  refine { h.release with pty := ?_ }
  change (if s.ephemeral then _ else s.pty).Alike (if t.ephemeral then _ else t.pty)
  rw [h.ephemeral]
  split
  · exact hdead
  · exact h.pty

-- ---------------------------------------------------------------------------
-- Input
-- ---------------------------------------------------------------------------

theorem expireInputLeaseIfDue (m : Moment) (h : Alike s t) :
    Alike (s.expireInputLeaseIfDue m) (t.expireInputLeaseIfDue m) := by
  have hdue : s.leaseDue m = t.leaseDue m := by rw [leaseDue, leaseDue, h.leaseUntil]
  unfold Session.expireInputLeaseIfDue
  rw [hdue, h.leaseNonce, h.leaseUntil]
  exact { h with leaseNonce := rfl, leaseUntil := rfl }

theorem leaseBlocksInput (h : Alike s t) : s.leaseBlocksInput = t.leaseBlocksInput := by
  rw [Session.leaseBlocksInput, Session.leaseBlocksInput, h.leaseGeneration, h.leaseNonce]

theorem flushLoop (bufs : List (List UInt8)) : Mirrors Eq (flushLoop bufs) := by
  induction bufs with
  | nil => exact .pure rfl
  | cons buf bufs ih =>
    refine .bind (.modify fun _ _ h => { h with pendingInput := rfl }) fun _ _ _ => ?_
    refine .bind (onPty (Pty.Alike.writeAll buf)) fun _ _ _ => ?_
    exact .bind (.modify fun _ _ h => { h with }) fun _ _ _ => ih

theorem flushInput : Mirrors Eq flushInput := by
  refine .get_bind fun s t h => ?_
  rw [h.pendingInput]
  exact flushLoop _ s t h

theorem applyResize (m : Moment) (size : Winsize) : Mirrors Eq (applyResize m size) := by
  refine .bind (.modify fun _ _ h => h.expireInputLeaseIfDue m) fun _ _ _ => ?_
  refine .get_bind fun s t h => ?_
  rw [h.leaseBlocksInput]
  refine Couples.ite .rfl (fun _ => .pure rfl) (fun _ => ?_) s t h
  refine .bind flushInput fun _ _ _ => ?_
  refine .bind (.modify fun _ _ h => { h with }) fun _ _ _ => ?_
  refine .bind (onPty (Pty.Alike.setWinsize size)) fun _ _ _ => ?_
  exact .modify fun _ _ h => { h with }

theorem applyData (m : Moment) (bytes : List UInt8) : Mirrors Eq (applyData m bytes) := by
  refine .get_bind fun s t h => ?_
  rw [h.childExit]
  refine Couples.guard .rfl (fun _ => ?_) s t h
  refine .bind (.modify fun _ _ h => h.expireInputLeaseIfDue m) fun _ _ _ => ?_
  refine .get_bind fun s t h => ?_
  rw [h.leaseBlocksInput]
  refine Couples.ite .rfl (fun _ => .pure rfl) (fun _ => ?_) s t h
  refine .bind (.modify fun s t h => { h with pendingInput := ?_ }) fun _ _ _ => flushInput
  rw [h.pendingInput]

theorem claim (m : Moment) (generation : UInt64) (h : Alike s t) :
    Alike (s.claim m generation) (t.claim m generation) :=
  { h with
    attachGeneration := rfl
    resyncPending := rfl
    leaseGeneration := congrArg (fun n => min (n + 1) u64Max) h.leaseGeneration
    leaseNonce := rfl
    leaseUntil := rfl }

theorem attach (m : Moment) (generation : UInt64) (observe : Bool) (h : Alike s t) :
    Alike (s.attach m generation observe) (t.attach m generation observe) := by
  have hattached : s.attached = t.attached := congrArg Option.isSome h.attachGeneration
  unfold Session.attach
  rw [hattached]
  split
  · exact { h with }
  · split
    · exact { h with }
    · exact h.claim m generation

theorem onFrame (m : Moment) (frame : Frame) : Mirrors Eq (onFrame m frame) := by
  cases frame with
  | attach generation _ _ observe => exact .modify fun _ _ h => h.attach m generation observe
  | credit n =>
    exact .modify fun _ _ h => { h with
      credit := congrArg (fun c => min (c + n.toNat) u64Max) h.credit }
  | resize cols rows pxW pxH => exact applyResize m _
  | data bytes => exact applyData m bytes
  | _ => exact .pure rfl

-- ---------------------------------------------------------------------------
-- Output
-- ---------------------------------------------------------------------------

def SameRead (a b : Option (List UInt8)) : Prop := Option.Rel SameLength a b

theorem isEmpty_eq {a b : List UInt8} (h : SameLength a b) : a.isEmpty = b.isEmpty := by
  rw [Bool.eq_iff_iff, List.isEmpty_iff_length_eq_zero, List.isEmpty_iff_length_eq_zero, h.eq]

theorem append {r q : ByteRing} (h : SameLength r.data q.data ∧ r.cap = q.cap) {a b : List UInt8}
    (hab : SameLength a b) :
    SameLength (r.append a).data (q.append b).data ∧ (r.append a).cap = (q.append b).cap := by
  unfold ByteRing.append
  rw [isEmpty_eq hab]
  split
  · exact h
  · refine ⟨?_, h.2⟩
    rw [SameLength, hab.eq, h.1.eq, h.2]
    split
    · rw [List.length_drop, List.length_drop, hab.eq]
    · rw [List.length_append, List.length_append, List.length_drop, List.length_drop, hab.eq, h.1.eq]

theorem deliver (h : Alike s t) {a b : List UInt8} (hab : SameLength a b) :
    Alike (s.deliver a) (t.deliver b) :=
  { h with ring := append h.ring hab }

theorem drainPtyAtMost (max : Option Nat) : Mirrors SameRead (drainPtyAtMost max) := by
  have hnone : Mirrors SameRead (pure none) := .pure .none
  refine .get_bind fun s t h => ?_
  rw [h.childExit]
  refine Couples.ite .rfl (fun _ => hnone) (fun _ => ?_) s t h
  refine Couples.ite .rfl (fun _ => ?_) (fun _ => ?_)
  · exact .bind (.modify fun _ _ h => { h with }) fun _ _ _ => hnone
  · refine .bind (onPty (Pty.Alike.read _)) fun a b hab => ?_
    rw [isEmpty_eq hab]
    refine .ite .rfl (fun _ => hnone) fun _ => ?_
    exact .bind (.modify fun _ _ h => h.deliver hab) fun _ _ _ => .pure (.some hab)

theorem onPtyReadable : Mirrors Eq onPtyReadable := by
  refine .get_bind fun s t h => ?_
  rw [h.credit]
  refine Couples.ite .rfl (fun _ => ?_) (fun _ => ?_) s t h
  · exact .bind (.modify fun _ _ h => { h with }) fun _ _ _ => .pure rfl
  · refine .bind (onPty (Pty.Alike.read _)) fun a b hab => ?_
    rw [isEmpty_eq hab]
    refine .ite .rfl (fun _ => .pure rfl) fun _ => ?_
    refine .bind (.modify fun s t h => { h.deliver hab with credit := ?_ }) fun _ _ _ => .pure hab
    change s.credit - a.length = t.credit - b.length
    rw [h.credit, hab.eq]

theorem reap (m : Moment) : Mirrors Eq (reap m) :=
  .bind (.modify fun _ _ h => h.expireInputLeaseIfDue m) fun _ _ _ => pollChild

end Alike

end Session

-- ---------------------------------------------------------------------------
-- The graph
-- ---------------------------------------------------------------------------

variable {b id : SessionId}

/-- Leaf `id` on both sides: the same, but for what the child of `b` writes. -/
def SameLeaf (b id : SessionId) (s t : Session) : Prop := s.Alike t ∧ (id ≠ b → s = t)

/-- Results about leaf `id`, which about any leaf but `b` are equal. -/
def SameResult (b id : SessionId) (Q : α → α → Prop) (x y : α) : Prop := Q x y ∧ (id ≠ b → x = y)

/-- Kernels with the same leaves, that will give the next one the same id. -/
structure SameIds (k l : Kernel) : Prop where
  ids : l.ids = k.ids
  next : l.next = k.next

namespace SameIds

variable {k l : Kernel}

theorem refl (k : Kernel) : SameIds k k := ⟨rfl, rfl⟩

theorem allocateId_congr {leaves leaves' : Table SessionId Session} (h : leaves.keys = leaves'.keys)
    (turns : Nat) (next : UInt64) :
    Kernel.allocateId leaves turns next = Kernel.allocateId leaves' turns next := by
  induction turns generalizing next with
  | zero =>
    unfold Kernel.allocateId
    rw [h]
  | succ turns ih =>
    unfold Kernel.allocateId
    rw [h]
    dsimp only
    rw [ih]

theorem allocateId (h : SameIds k l) :
    Kernel.allocateId l.leaves l.ids.length l.next = Kernel.allocateId k.leaves k.ids.length k.next := by
  rw [h.next, h.ids]
  exact allocateId_congr h.ids _ _

theorem spawnLeaf (h : SameIds k l) (s t : Session) :
    (l.spawnLeaf t).1 = (k.spawnLeaf s).1 ∧ SameIds (k.spawnLeaf s).2 (l.spawnLeaf t).2 := by
  have hkeys : l.leaves.keys = k.leaves.keys := h.ids
  unfold Kernel.spawnLeaf
  dsimp only
  rw [h.allocateId]
  generalize Kernel.allocateId k.leaves k.ids.length k.next = given
  refine ⟨rfl, ?_, rfl⟩
  change (l.leaves.insert given.1 t).keys = (k.leaves.insert given.1 s).keys
  by_cases hmem : given.1 ∈ k.leaves.keys
  · rw [Table.insert_of_mem hmem, Table.insert_of_mem (hkeys ▸ hmem), hkeys]
  · rw [Table.keys_insert hmem, Table.keys_insert (hkeys ▸ hmem), hkeys]

theorem onSession (k : Kernel) (id : SessionId) (m : Op Session Error α) :
    Op.Keeps (SameIds k) (onSession id m) := by
  intro l h
  cases hs : l.session id with
  | none =>
    rw [exec_onSession_none hs]
    exact h
  | some s =>
    rw [exec_onSession hs]
    exact ⟨(Table.keys_set ..).trans h.ids, h.next⟩

theorem reap (k : Kernel) (m : Moment) (id : SessionId) : Op.Keeps (SameIds k) (reap m id) :=
  .bind (onSession k id _) fun _ => .ite (fun _ => .modify fun _ h => ⟨h.ids, h.next⟩) fun _ => .pure _

end SameIds

/-- Kernels that differ in what the child of `b` writes, and in what they record. -/
structure Alike (b : SessionId) (k l : Kernel) : Prop where
  next : k.next = l.next
  ids : k.ids = l.ids
  leaves : ∀ id, Option.Rel (SameLeaf b id) (k.session id) (l.session id)

namespace Alike

variable {k l : Kernel}

theorem sameIds (h : Alike b k l) : SameIds k l := ⟨h.ids.symm, h.next.symm⟩

theorem attached (h : Alike b k l) (id : SessionId) : k.attached id = l.attached id := by
  have hleaf := h.leaves id
  unfold Kernel.attached
  generalize k.session id = o at hleaf
  generalize l.session id = o' at hleaf
  cases hleaf with
  | none => rfl
  | some hs => exact congrArg Option.isSome hs.1.attachGeneration

theorem setSession (h : Alike b k l) {s t s' t' : Session} (hs : k.session id = some s)
    (ht : l.session id = some t) (h' : SameLeaf b id s' t') :
    Alike b (k.setSession id s') (l.setSession id t') where
  next := h.next
  ids := (Table.keys_set ..).trans (h.ids.trans (Table.keys_set ..).symm)
  leaves j := by
    rw [session_setSession hs, session_setSession ht]
    by_cases hj : j = id
    · subst hj
      rw [Function.update_self, Function.update_self]
      exact .some h'
    · rw [Function.update_of_ne hj, Function.update_of_ne hj]
      exact h.leaves j

theorem record (h : Alike b k l) (id : SessionId) (kind : GraphEventKind) :
    Alike b (k.record id kind) (l.record id kind) := ⟨h.next, h.ids, h.leaves⟩

theorem onSession {m n : Op Session Error α}
    (h : Couples (fun _ => False) (SameLeaf b id) Q m n) :
    Couples (fun _ => False) (Alike b) Q (onSession id m) (onSession id n) := by
  intro k l hkl
  have hleaf := hkl.leaves id
  cases hs : k.session id with
  | none =>
    rw [hs] at hleaf
    cases ht : l.session id with
    | none =>
      rw [exec_onSession_none hs, exec_onSession_none ht]
      exact .error _ hkl
    | some t =>
      rw [ht] at hleaf
      exact nomatch hleaf
  | some s =>
    rw [hs] at hleaf
    cases ht : l.session id with
    | none =>
      rw [ht] at hleaf
      exact nomatch hleaf
    | some t =>
      rw [ht] at hleaf
      cases hleaf with
      | some hst =>
        rw [exec_onSession hs, exec_onSession ht]
        have hends := h s t hst
        generalize m.exec s = p at hends
        generalize n.exec t = q at hends
        cases hends with
        | ok hab hst => exact .ok hab (hkl.setSession hs ht hst)
        | error e hst => exact .error e (hkl.setSession hs ht hst)
        | left hbad => exact hbad.elim
        | right hbad => exact hbad.elim

theorem onSame {m : Op Session Error α} (h : Session.Mirrors Q m) :
    Couples (fun _ => False) (Alike b) (SameResult b id Q) (Kernel.onSession id m)
      (Kernel.onSession id m) :=
  onSession (h.refine (id ≠ b))

theorem reap (m : Moment) (id : SessionId) :
    Couples (fun _ => False) (Alike b) Eq (reap m id) (reap m id) := by
  refine .bind (onSame (Session.Alike.reap m)) fun seen _ heq => ?_
  obtain rfl := heq.1
  exact .ite .rfl (fun _ => .modify fun _ _ h => h.record id .exit) fun _ => .pure rfl

theorem onFrame (m : Moment) (id : SessionId) (frame : Frame) :
    Couples (fun _ => False) (Alike b) Eq (onFrame m id frame) (onFrame m id frame) := by
  refine .get_bind fun k l h => ?_
  rw [h.attached]
  refine Couples.bind (onSame (Session.Alike.onFrame m frame)) (fun _ _ _ => ?_) k l h
  refine .get_bind fun k l h => ?_
  rw [h.attached]
  exact Couples.ite .rfl (fun _ => .modify fun _ _ h => h.record id .attach) (fun _ => .pure rfl) k l h

theorem takeOutbound (h : Alike b k l) (claimed : List SessionId) :
    Alike b (k.takeOutbound claimed) (l.takeOutbound claimed) where
  next := h.next
  ids := (Table.keys_map ..).trans (h.ids.trans (Table.keys_map ..).symm)
  leaves id := by
    have hleaf := h.leaves id
    rw [session_takeOutbound, session_takeOutbound]
    generalize k.session id = o at hleaf
    generalize l.session id = o' at hleaf
    cases hleaf with
    | none => exact .none
    | some hst => exact .some ⟨{ hst.1 with }, fun hid => by rw [hst.2 hid]⟩

theorem spawnLeaf (h : Alike b k l) {s t : Session} (hst : SameLeaf b (k.spawnLeaf s).1 s t) :
    Alike b (k.spawnLeaf s).2 (l.spawnLeaf t).2 := by
  have halloc := h.sameIds.allocateId
  unfold Kernel.spawnLeaf at hst ⊢
  dsimp only at hst ⊢
  rw [halloc]
  generalize allocateId k.leaves k.ids.length k.next = given at hst
  have hkeys : k.leaves.keys = l.leaves.keys := h.ids
  have hgrown : Alike b { k with next := given.2, leaves := k.leaves.insert given.1 s }
      { l with next := given.2, leaves := l.leaves.insert given.1 t } := by
    refine ⟨rfl, ?_, fun j => ?_⟩
    · change (k.leaves.insert given.1 s).keys = (l.leaves.insert given.1 t).keys
      by_cases hmem : given.1 ∈ k.leaves.keys
      · rw [Table.insert_of_mem hmem, Table.insert_of_mem (hkeys ▸ hmem), hkeys]
      · rw [Table.keys_insert hmem, Table.keys_insert (hkeys ▸ hmem), hkeys]
    · change Option.Rel _ ((k.leaves.insert given.1 s).get? j) ((l.leaves.insert given.1 t).get? j)
      by_cases hmem : given.1 ∈ k.leaves.keys
      · rw [Table.insert_of_mem hmem, Table.insert_of_mem (hkeys ▸ hmem)]
        exact h.leaves j
      · by_cases hj : j = given.1
        · subst hj
          rw [Table.get?_insert_self hmem, Table.get?_insert_self (hkeys ▸ hmem)]
          exact .some hst
        · rw [Table.get?_insert_of_ne _ _ hj, Table.get?_insert_of_ne _ _ hj]
          exact h.leaves j
  exact hgrown.record _ _

end Alike

end Rill.Kernel
