import Mathlib.Algebra.GroupWithZero.Nat
import Rill.Kernel.Close
import Rill.Kernel.Lease
import Rill.Lib.Fresh

/-!
# The event log of the kernel

Ids of leaves are never given twice, and what the kernel records of its leaves: each is
spawned once and before anything else, and its exit is recorded when it is known and just
once.
-/

namespace Rill

open Lib Attach

namespace Kernel

-- ---------------------------------------------------------------------------
-- Free ids
-- ---------------------------------------------------------------------------

/-- `checked_add(1).unwrap_or(1)`. -/
def nextId (id : UInt64) : UInt64 := if id = 18446744073709551615 then 1 else id + 1

theorem nextId_ne_zero {id : UInt64} : nextId id ≠ 0 := by
  rw [nextId]
  split
  case isTrue => simp
  case isFalse hmax =>
    intro hzero
    apply hmax
    have hval : id.toNat + 1 = 18446744073709551616 ∨ id.toNat + 1 < 18446744073709551616 := by
      have hlt := id.toNat_lt
      omega
    rcases hval with hval | hval
    · exact UInt64.toNat_inj.mp (by simpa using hval)
    · have hsum := congrArg UInt64.toNat hzero
      rw [UInt64.toNat_add, UInt64.toNat_one, Nat.mod_eq_of_lt hval] at hsum
      simp at hsum

theorem toNat_iterate_nextId {id : UInt64} (h : id ≠ 0) (j : Nat) :
    ((nextId^[j]) id).toNat = (id.toNat - 1 + j) % 18446744073709551615 + 1 := by
  induction j with
  | zero =>
    have hpos : 0 < id.toNat := Nat.pos_of_ne_zero fun hz => h (UInt64.toNat_inj.mp hz)
    have hlt := id.toNat_lt
    simp only [Function.iterate_zero, Nat.add_zero]
    rw [Nat.mod_eq_of_lt (by omega)]
    exact (Nat.sub_add_cancel hpos).symm
  | succ j ih =>
    rw [Function.iterate_succ_apply']
    generalize (nextId^[j]) id = x at ih
    rw [nextId]
    split
    case isTrue hmax =>
      subst hmax
      have hval : (18446744073709551615 : UInt64).toNat = 18446744073709551615 := rfl
      have hone : (1 : UInt64).toNat = 1 := rfl
      omega
    case isFalse hmax =>
      have hne : x.toNat ≠ 18446744073709551615 := fun heq => hmax (UInt64.toNat_inj.mp heq)
      have hlt := x.toNat_lt
      have hone : (1 : UInt64).toNat = 1 := rfl
      rw [UInt64.toNat_add, hone]
      omega

theorem distinct_nextId {id : UInt64} (h : id ≠ 0) : Fresh.Distinct nextId id 18446744073709551615 := by
  intro i j hi hj heq
  have hval := congrArg UInt64.toNat heq
  rw [toNat_iterate_nextId h, toNat_iterate_nextId h] at hval
  omega

theorem allocateId_of_free {leaves : Table SessionId Session} {next : UInt64}
    (h : (⟨next⟩ : SessionId) ∉ leaves.keys) (turns : Nat) :
    allocateId leaves turns next = (⟨next⟩, nextId next) := by
  unfold allocateId
  simp only [h, not_false_eq_true, if_true]
  rfl

theorem allocateId_zero (leaves : Table SessionId Session) (next : UInt64) :
    allocateId leaves 0 next = (⟨next⟩, nextId next) := by
  unfold allocateId
  by_cases h : (⟨next⟩ : SessionId) ∉ leaves.keys
  · simp only [h, not_false_eq_true, if_true]
    rfl
  · simp only [h, if_false]
    rfl

theorem allocateId_succ {leaves : Table SessionId Session} {next : UInt64}
    (h : (⟨next⟩ : SessionId) ∈ leaves.keys) (turns : Nat) :
    allocateId leaves (turns + 1) next = allocateId leaves turns (nextId next) := by
  rw [allocateId]
  simp only [h, not_true_eq_false, if_false]
  rfl

/-- The id that is given is free, unless the turns run out. -/
theorem allocateId_free (leaves : Table SessionId Session) (turns : Nat) (next : UInt64) :
    (allocateId leaves turns next).1 ∉ leaves.keys ∨
      ∀ j ≤ turns, (⟨(nextId^[j]) next⟩ : SessionId) ∈ leaves.keys := by
  induction turns generalizing next with
  | zero =>
    by_cases hfree : (⟨next⟩ : SessionId) ∈ leaves.keys
    · refine .inr fun j hj => ?_
      obtain rfl := Nat.le_zero.mp hj
      exact hfree
    · exact .inl (by rwa [allocateId_zero])
  | succ turns ih =>
    by_cases hfree : (⟨next⟩ : SessionId) ∈ leaves.keys
    · rw [allocateId_succ hfree]
      refine (ih (nextId next)).imp_right fun htaken j hj => ?_
      cases j with
      | zero => exact hfree
      | succ j => exact htaken j (Nat.le_of_succ_le_succ hj)
    · exact .inl (by rwa [allocateId_of_free hfree])

/-- There are ids left to give. -/
structure HasIds (k : Kernel) : Prop where
  next : k.next ≠ 0
  free : k.ids.length < 18446744073709551615

theorem spawnLeaf_notMem {k : Kernel} (h : k.HasIds) (s : Session) : (k.spawnLeaf s).1 ∉ k.ids := by
  have hid : (k.spawnLeaf s).1 = (allocateId k.leaves k.ids.length k.next).1 := rfl
  rw [hid]
  rcases allocateId_free k.leaves k.ids.length k.next with hnot | htaken
  · exact hnot
  · have hlen : (k.ids.map SessionId.raw).length < k.ids.length + 1 := by simp
    have hdistinct : Fresh.Distinct nextId k.next (k.ids.length + 1) := by
      intro i j hi hj
      have hfree := h.free
      exact distinct_nextId h.next i j (by omega) (by omega)
    obtain ⟨i, hi, hnot⟩ := Fresh.exists_notMem hdistinct hlen
    refine absurd (List.mem_map_of_mem (f := SessionId.raw) ?_) hnot
    exact htaken i (Nat.le_of_lt_succ hi)

theorem next_spawnLeaf (k : Kernel) (s : Session) : (k.spawnLeaf s).2.next ≠ 0 := by
  have hnext : (k.spawnLeaf s).2.next = (allocateId k.leaves k.ids.length k.next).2 := rfl
  rw [hnext]
  generalize k.ids.length = turns, k.next = next
  induction turns generalizing next with
  | zero =>
    rw [allocateId_zero]
    exact nextId_ne_zero
  | succ turns ih =>
    by_cases hfree : (⟨next⟩ : SessionId) ∈ k.leaves.keys
    · rw [allocateId_succ hfree]
      exact ih _
    · rw [allocateId_of_free hfree]
      exact nextId_ne_zero

theorem ids_spawnLeaf {k : Kernel} (h : k.HasIds) (s : Session) :
    (k.spawnLeaf s).2.ids = k.ids ++ [(k.spawnLeaf s).1] :=
  Table.keys_insert (spawnLeaf_notMem h s) s

theorem mem_ids_iff {k : Kernel} {id : SessionId} : id ∈ k.ids ↔ (k.session id).isSome :=
  Table.mem_keys_iff k.leaves id

-- ---------------------------------------------------------------------------
-- The calls
-- ---------------------------------------------------------------------------

/-- A call on the kernel, on one of its sessions by `session_mut`, or on its containers. -/
inductive GraphCall
  | spawn (pty : Pty) (ephemeral : Bool) (size : Winsize)
  | reap (m : Moment) (id : SessionId)
  | frame (m : Moment) (id : SessionId) (f : Frame)
  | terminate (id : SessionId)
  | use (id : SessionId) (u : Use)
  | createNode (turns : Nat) (kind : NodeKind) (parent : Option NodeId)
  | attachLeaf (node : NodeId) (leaf : SessionId)
  | reparentNode (node : NodeId) (newParent : Option NodeId)
  | closeNode (turns : Nat) (node : NodeId)

/-- Whether the call succeeds or not. One whose loop does not end is cut off after `turns` of it. -/
def afterCall (g : Containers) : GraphCall → Containers
  | .spawn pty ephemeral size =>
    { g with kernel := (g.kernel.spawnLeaf (.spawn pty ephemeral size)).2 }
  | .reap m id => { g with kernel := ((reap m id).exec g.kernel).2 }
  | .frame m id f => { g with kernel := ((onFrame m id f).exec g.kernel).2 }
  | .terminate id => { g with kernel := ((terminate id).exec g.kernel).2 }
  | .use id u =>
    match g.kernel.session id with
    | some s => { g with kernel := g.kernel.setSession id (u.next s) }
    | none => g
  | .createNode turns kind parent => ((Containers.createNode turns kind parent).exec g).2
  | .attachLeaf node leaf => ((Containers.attachLeaf node leaf).exec g).2
  | .reparentNode node newParent => ((Containers.reparentNode node newParent).exec g).2
  | .closeNode turns node => ((Containers.closeNode turns node).exec g).2

/-- A call of a session that neither waits for its child nor ends it. -/
def Use.Gentle : Use → Prop
  | .reap _ | .pollChild | .terminate => False
  | _ => True

/-- The child is waited for and ended through the kernel only, and there are ids left to give. -/
def Allowed (g : Containers) : GraphCall → Prop
  | .spawn .. => g.kernel.ids.length < 18446744073709551615
  | .use _ u => u.Gentle
  | _ => True

/-- What the calls that neither wait for the child nor kill it leave alone. -/
def Unmarked (s t : Session) : Prop :=
  t.childExit = s.childExit ∧ t.terminated = s.terminated ∧ t.checkpoint = s.checkpoint

namespace Unmarked

variable (s₀ : Session)

theorem onPty (m : Op Pty Error α) : Op.Keeps (Unmarked s₀) (Session.onPty m) := Op.Keeps.on fun _ h => h

theorem record {s : Session} (h : Unmarked s₀ s) (event : IoEvent) : Unmarked s₀ (s.record event) := h

theorem flushInput : Op.Keeps (Unmarked s₀) Session.flushInput := by
  have hloop : ∀ bufs, Op.Keeps (Unmarked s₀) (Session.flushLoop bufs) := by
    intro bufs
    induction bufs with
    | nil => exact .pure _
    | cons buf rest ih =>
      exact .bind (.modify fun _ h => h) fun _ => .bind (onPty s₀ _) fun _ =>
        .bind (.modify fun _ h => h) fun _ => ih
  exact .bind .get fun s => hloop s.pendingInput

theorem onFrame (m : Moment) (f : Frame) : Op.Keeps (Unmarked s₀) (Session.onFrame m f) := by
  have hexpire : Op.Keeps (Unmarked s₀) (modify fun s => s.expireInputLeaseIfDue m : Op Session Error Unit) :=
    .modify fun _ h => h
  cases f with
  | attach generation sessionId protocol observe =>
    refine .modify fun s h => ?_
    unfold Session.attach
    split
    · exact h
    · split
      · exact h
      · exact h
  | credit n => exact .modify fun _ h => h
  | resize cols rows pxW pxH =>
    refine .bind hexpire fun _ => .bind .get fun s => .ite (fun _ => .pure _) fun _ => ?_
    refine .bind (flushInput s₀) fun _ => .bind (.modify fun _ h => h) fun _ => ?_
    exact .bind (onPty s₀ _) fun _ => .modify fun _ h => h
  | data bytes =>
    refine .bind .get fun s => .guard fun _ => .bind hexpire fun _ => .bind .get fun s => ?_
    exact .ite (fun _ => .pure _) fun _ => .bind (.modify fun _ h => h) fun _ => flushInput s₀
  | exit | refused | checkpoint | delta | resyncRequest => exact .pure _

theorem drainPtyAtMost (max : Option Nat) : Op.Keeps (Unmarked s₀) (Session.drainPtyAtMost max) := by
  refine .bind .get fun s => .ite (fun _ => .pure _) fun _ => ?_
  refine .ite (fun _ => .bind (.modify fun _ h => h) fun _ => .pure _) fun _ => ?_
  refine .bind (onPty s₀ _) fun got => .ite (fun _ => .pure _) fun _ => ?_
  exact .bind (.modify fun _ h => h) fun _ => .pure _

theorem onPtyReadable : Op.Keeps (Unmarked s₀) Session.onPtyReadable := by
  refine .bind .get fun s => .ite (fun _ => .bind (.modify fun _ h => h) fun _ => .pure _) fun _ => ?_
  refine .bind (onPty s₀ _) fun got => .ite (fun _ => .pure _) fun _ => ?_
  exact .bind (.modify fun _ h => h) fun _ => .pure _

theorem next {u : Use} (h : u.Gentle) : Unmarked s₀ (u.next s₀) := by
  have hrefl : Unmarked s₀ s₀ := ⟨rfl, rfl, rfl⟩
  cases u with
  | frame m f => exact onFrame s₀ m f s₀ hrefl
  | reap | pollChild | terminate => cases h
  | detach => exact hrefl
  | ptyReadable => exact onPtyReadable s₀ s₀ hrefl
  | drainPtyAtMost max => exact drainPtyAtMost s₀ max s₀ hrefl
  | takeInputLease | expireInputLeaseIfDue | releaseObserver | enqueueOutbound | popOutbound |
    takeResyncHistory | noteStalledRead => exact hrefl

end Unmarked

/-- Everything that a call can do to the log: at most one entry, for a leaf there is and with
what happened to it. -/
inductive Logs (k : Kernel) : Kernel → Prop
  | nothing : Logs k k
  | quiet {id : SessionId} {s t : Session} (hs : k.session id = some s) (hexit : t.childExit = s.childExit)
      (hend : s.terminated = true → t.terminated = true) : Logs k (k.setSession id t)
  | attach {id : SessionId} {s t : Session} (hs : k.session id = some s) (hkept : Unmarked s t) :
      Logs k ((k.setSession id t).record id .attach)
  | exit {id : SessionId} {s t : Session} (hs : k.session id = some s) (hnone : s.childExit = none)
      (hsome : t.childExit.isSome = true) (hend : t.terminated = s.terminated) :
      Logs k ((k.setSession id t).record id .exit)
  | terminate {id : SessionId} {s t : Session} (hs : k.session id = some s)
      (hexit : t.childExit = s.childExit) (hlive : s.terminated = false) (hend : t.terminated = true) :
      Logs k ((k.setSession id t).record id .terminate)
  | spawn (pty : Pty) (ephemeral : Bool) (size : Winsize) (hids : k.ids.length < 18446744073709551615) :
      Logs k (k.spawnLeaf (.spawn pty ephemeral size)).2

theorem logs_reap (k : Kernel) (m : Moment) (id : SessionId) : Logs k ((reap m id).exec k).2 := by
  cases hs : k.session id with
  | none =>
    rw [reap_none hs]
    exact .nothing
  | some s =>
    rw [reap, Op.exec_bind, exec_onSession hs, Session.reap, Op.exec_modify_bind]
    have hkept : Unmarked s (s.expireInputLeaseIfDue m) := ⟨rfl, rfl, rfl⟩
    generalize s.expireInputLeaseIfDue m = s' at hkept
    rw [Session.pollChild, Op.exec_get_bind]
    by_cases hdead : s'.childExit.isSome = true
    · rw [if_pos hdead]
      exact .quiet hs hkept.1 fun h => hkept.2.1.trans h
    · rw [if_neg hdead, Op.exec_bind]
      have hexit : s.childExit = none := by
        rw [← hkept.1]
        simpa using hdead
      have hwait := Unmarked.onPty s Pty.tryWait s' hkept
      rcases hrun : (Session.onPty Pty.tryWait).exec s' with ⟨e | _ | status, t⟩
      · rw [hrun] at hwait
        exact .quiet hs hwait.1 fun h => hwait.2.1.trans h
      · rw [hrun] at hwait
        exact .quiet hs hwait.1 fun h => hwait.2.1.trans h
      · rw [hrun] at hwait
        exact .exit (t := t.observeExit status) hs hexit rfl hwait.2.1

theorem logs_onFrame (k : Kernel) (m : Moment) (id : SessionId) (f : Frame) :
    Logs k ((onFrame m id f).exec k).2 := by
  cases hs : k.session id with
  | none =>
    rw [onFrame_none hs]
    exact .nothing
  | some s =>
    have hkept := Unmarked.onFrame s m f s ⟨rfl, rfl, rfl⟩
    rw [onFrame, Op.exec_get_bind, Op.exec_bind, exec_onSession hs]
    rcases hrun : (Session.onFrame m f).exec s with ⟨e | _, t⟩
    · rw [hrun] at hkept
      exact .quiet hs hkept.1 fun h => hkept.2.1.trans h
    · rw [hrun] at hkept
      dsimp only
      rw [Op.exec_get_bind]
      split
      · exact .attach hs hkept
      · exact .quiet hs hkept.1 fun h => hkept.2.1.trans h

theorem logs_terminate (k : Kernel) (id : SessionId) : Logs k ((terminate id).exec k).2 := by
  rw [terminate, Op.exec_get_bind]
  cases hs : k.session id with
  | none => exact .nothing
  | some s =>
    dsimp only
    split
    case isTrue => exact .nothing
    case isFalse hlive =>
      have hlive : s.terminated = false := by simpa using hlive
      have hkept : (Session.terminate.exec s).2.childExit = s.childExit ∧
          (Session.terminate.exec s).2.terminated = true := by
        rw [Session.terminate, Op.exec_get_bind, hlive]
        exact ⟨rfl, rfl⟩
      rw [Op.exec_bind, exec_onSession hs]
      rcases hrun : Session.terminate.exec s with ⟨e | _, t⟩
      · rw [hrun] at hkept
        exact .quiet hs hkept.1 fun _ => hkept.2
      · rw [hrun] at hkept
        exact .terminate hs hkept.1 hlive hkept.2

-- ---------------------------------------------------------------------------
-- The log
-- ---------------------------------------------------------------------------

def recordedAs (k : Kernel) (kind : GraphEventKind) (id : SessionId) : Nat :=
  k.events.countP fun e => e.kind = kind ∧ e.session = id

theorem recordedAs_record (k : Kernel) (id leaf : SessionId) (kind kind' : GraphEventKind) :
    (k.record id kind).recordedAs kind' leaf =
      k.recordedAs kind' leaf + if kind = kind' ∧ id = leaf then 1 else 0 := by
  simp [recordedAs, record, List.countP_append, List.countP_cons]

/-- The log of a kernel: its entries are numbered from one, each leaf is spawned once and before
anything else is told of it, in the order in which the kernel keeps them. -/
structure Numbered (k : Kernel) : Prop where
  ids : k.events.map GraphEvent.id = (List.range k.events.length).map fun i => min (i + 1) u64Max
  nextEvent : k.nextEvent = min (k.events.length + 1) u64Max
  spawns : (k.events.filter fun e => e.kind = .spawn).map GraphEvent.session = k.ids
  first : ∀ (i : Nat) (e : GraphEvent), k.events[i]? = some e →
    e.kind = .spawn ∨ ∃ j < i, ∃ n, k.events[j]? = some ⟨n, e.session, .spawn⟩

namespace Numbered

variable {k : Kernel}

theorem setSession (h : Numbered k) (id : SessionId) (s : Session) : Numbered (k.setSession id s) where
  ids := h.ids
  nextEvent := h.nextEvent
  spawns := by
    rw [Kernel.ids, Kernel.setSession, Table.keys_set]
    exact h.spawns
  first := h.first

/-- One more entry, for a leaf that was spawned or is now. -/
theorem record (h : Numbered k) {k' : Kernel} {id : SessionId} {kind : GraphEventKind}
    (hevents : k'.events = k.events ++ [⟨k.nextEvent, id, kind⟩])
    (hnext : k'.nextEvent = min (k.nextEvent + 1) u64Max)
    (hids : k'.ids = if kind = .spawn then k.ids ++ [id] else k.ids)
    (hid : kind = .spawn ∨ id ∈ k.ids) : Numbered k' where
  ids := by
    rw [hevents, List.map_append, h.ids, List.length_append, List.length_singleton, List.range_succ,
      List.map_append, List.map_singleton, List.map_singleton, h.nextEvent]
  nextEvent := by
    rw [hnext, h.nextEvent, hevents, List.length_append, List.length_singleton]
    omega
  spawns := by
    rw [hevents, hids, List.filter_append, List.map_append, h.spawns]
    by_cases hspawn : kind = .spawn
    · simp [hspawn]
    · simp [hspawn]
  first := by
    intro i e he
    rw [hevents] at he ⊢
    rcases Nat.lt_or_ge i k.events.length with hlt | hge
    · rw [List.getElem?_append_left hlt] at he
      refine (h.first i e he).imp_right ?_
      rintro ⟨j, hj, n, hspawn⟩
      exact ⟨j, hj, n, by rwa [List.getElem?_append_left (Nat.lt_trans hj hlt)]⟩
    · rw [List.getElem?_append_right hge, List.getElem?_singleton] at he
      split at he
      case isFalse => cases he
      case isTrue hzero =>
        obtain rfl := Option.some.inj he
        refine hid.imp_right fun hmem => ?_
        rw [← h.spawns] at hmem
        obtain ⟨⟨n, session, kind'⟩, hspawned, rfl⟩ := List.mem_map.mp hmem
        obtain ⟨hin, hkind⟩ := List.mem_filter.mp hspawned
        obtain rfl : kind' = .spawn := by simpa using hkind
        obtain ⟨j, hj, hget⟩ := List.getElem_of_mem hin
        refine ⟨j, Nat.lt_of_lt_of_le hj hge, n, ?_⟩
        rw [List.getElem?_append_left hj, List.getElem?_eq_getElem hj, hget]

end Numbered

/-- What the log tells of the leaves: an exit just where one is known, and an end only where
the leaf was ended. -/
structure Tells (k : Kernel) : Prop where
  next : k.next ≠ 0
  numbered : Numbered k
  exits : ∀ id s, k.session id = some s → k.recordedAs .exit id = s.childExit.toList.length
  ends : ∀ id s, k.session id = some s → k.recordedAs .terminate id ≤ if s.terminated then 1 else 0

namespace Tells

variable {k : Kernel}

/-- A leaf goes from `s` to `t`, and an entry is made of it. -/
theorem record (h : Tells k) {id : SessionId} {s t : Session} (hs : k.session id = some s)
    {kind : GraphEventKind} (hkind : kind ≠ .spawn)
    (hexit : t.childExit.toList.length = s.childExit.toList.length + if kind = .exit then 1 else 0)
    (hend : (if s.terminated then 1 else 0) + (if kind = .terminate then 1 else 0) ≤
      if t.terminated then 1 else 0) : Tells ((k.setSession id t).record id kind) := by
  have hmem : id ∈ k.ids := mem_ids_iff.mpr (by rw [hs]; rfl)
  have hids : (k.setSession id t).ids = k.ids := Table.keys_set k.leaves id t
  have hsession : ((k.setSession id t).record id kind).session = Function.update k.session id (some t) :=
    session_setSession hs t
  have hcount : ∀ kind', (k.setSession id t).recordedAs kind' = k.recordedAs kind' := fun _ => rfl
  refine ⟨h.next, ?_, ?_, ?_⟩
  · refine (h.numbered.setSession id t).record rfl rfl ?_ (.inr (hids ▸ hmem))
    rw [if_neg hkind]
    rfl
  · intro leaf u hu
    rw [hsession] at hu
    rw [recordedAs_record, hcount]
    by_cases hleaf : leaf = id
    · subst hleaf
      rw [Function.update_self] at hu
      obtain rfl := Option.some.inj hu
      rw [h.exits leaf s hs, hexit]
      simp
    · rw [Function.update_of_ne hleaf] at hu
      rw [h.exits leaf u hu]
      simp [Ne.symm hleaf]
  · intro leaf u hu
    rw [hsession] at hu
    rw [recordedAs_record, hcount]
    by_cases hleaf : leaf = id
    · subst hleaf
      rw [Function.update_self] at hu
      obtain rfl := Option.some.inj hu
      refine Nat.le_trans (Nat.add_le_add_right (h.ends leaf s hs) _) ?_
      simpa using hend
    · rw [Function.update_of_ne hleaf] at hu
      simpa [Ne.symm hleaf] using h.ends leaf u hu

theorem quiet (h : Tells k) {id : SessionId} {s t : Session} (hs : k.session id = some s)
    (hexit : t.childExit = s.childExit) (hend : s.terminated = true → t.terminated = true) :
    Tells (k.setSession id t) := by
  have hsession : (k.setSession id t).session = Function.update k.session id (some t) :=
    session_setSession hs t
  refine ⟨h.next, h.numbered.setSession id t, ?_, ?_⟩
  · intro leaf u hu
    rw [hsession] at hu
    by_cases hleaf : leaf = id
    · subst hleaf
      rw [Function.update_self] at hu
      obtain rfl := Option.some.inj hu
      rw [hexit]
      exact h.exits leaf s hs
    · rw [Function.update_of_ne hleaf] at hu
      exact h.exits leaf u hu
  · intro leaf u hu
    rw [hsession] at hu
    by_cases hleaf : leaf = id
    · subst hleaf
      rw [Function.update_self] at hu
      obtain rfl := Option.some.inj hu
      refine Nat.le_trans (h.ends leaf s hs) ?_
      cases hdead : s.terminated with
      | true => simp [hend hdead]
      | false => simp
    · rw [Function.update_of_ne hleaf] at hu
      exact h.ends leaf u hu

theorem logs {k' : Kernel} (h : Tells k) (hlogs : Logs k k') : Tells k' := by
  cases hlogs with
  | nothing => exact h
  | quiet hs hexit hend => exact h.quiet hs hexit hend
  | attach hs hkept => exact h.record hs (by simp) (by simp [hkept.1]) (by simp [hkept.2.1])
  | @exit id s t hs hnone hsome hend =>
    refine h.record hs (by simp) ?_ (by simp [hend])
    obtain ⟨status, hstatus⟩ := Option.isSome_iff_exists.mp hsome
    simp [hnone, hstatus]
  | terminate hs hexit hlive hend => exact h.record hs (by simp) (by simp [hexit]) (by simp [hlive, hend])
  | spawn pty ephemeral size hfree =>
    let s := Session.spawn pty ephemeral size
    have hids : k.HasIds := ⟨h.next, hfree⟩
    have hnew := spawnLeaf_notMem hids s
    have hzero : ∀ kind, kind ≠ .spawn → k.recordedAs kind (k.spawnLeaf s).1 = 0 := by
      intro kind hkind
      rw [recordedAs, List.countP_eq_zero]
      intro e he
      simp only [decide_eq_true_eq, not_and]
      rintro rfl hsession
      apply hnew
      rw [← h.numbered.spawns]
      obtain ⟨i, hi, hget⟩ := List.getElem_of_mem he
      rcases h.numbered.first i e (by rw [List.getElem?_eq_getElem hi, hget]) with hspawn | ⟨j, -, n, hj⟩
      · exact absurd hspawn hkind
      · rw [← hsession]
        exact List.mem_map.mpr ⟨_, List.mem_filter.mpr ⟨List.mem_of_getElem? hj, by simp⟩, rfl⟩
    have hcount : ∀ kind leaf, kind ≠ .spawn →
        (k.spawnLeaf s).2.recordedAs kind leaf = k.recordedAs kind leaf := by
      intro kind leaf hkind
      have hrecord := recordedAs_record k (k.spawnLeaf s).1 leaf .spawn kind
      rw [if_neg fun hc => hkind hc.1.symm, Nat.add_zero] at hrecord
      exact hrecord
    have hself : (k.spawnLeaf s).2.session (k.spawnLeaf s).1 = some s := Table.get?_insert_self hnew s
    have hothers : ∀ leaf, leaf ≠ (k.spawnLeaf s).1 →
        (k.spawnLeaf s).2.session leaf = k.session leaf := fun leaf hleaf =>
      Table.get?_insert_of_ne k.leaves s hleaf
    refine ⟨next_spawnLeaf k s, ?_, ?_, ?_⟩
    · have hevents : (k.spawnLeaf s).2.events = k.events ++ [⟨k.nextEvent, (k.spawnLeaf s).1, .spawn⟩] := rfl
      exact h.numbered.record hevents rfl (ids_spawnLeaf hids s) (.inl rfl)
    · intro leaf t ht
      rw [hcount _ _ (by simp)]
      by_cases hleaf : leaf = (k.spawnLeaf s).1
      · subst hleaf
        obtain rfl := Option.some.inj (hself.symm.trans ht)
        exact hzero .exit (by simp)
      · exact h.exits leaf t ((hothers leaf hleaf).symm.trans ht)
    · intro leaf t ht
      rw [hcount _ _ (by simp)]
      by_cases hleaf : leaf = (k.spawnLeaf s).1
      · subst hleaf
        exact Nat.le_trans (Nat.le_of_eq (hzero .terminate (by simp))) (Nat.zero_le _)
      · exact h.ends leaf t ((hothers leaf hleaf).symm.trans ht)

theorem new : Tells .new where
  next := by simp [Kernel.new]
  numbered := ⟨rfl, rfl, rfl, fun _ _ he => (nomatch he)⟩
  exits := fun _ _ hs => (nomatch hs)
  ends := fun _ _ hs => (nomatch hs)

theorem closeNode (turns : Nat) (node : NodeId) :
    Op.Keeps (fun g : Containers => Tells g.kernel) (Containers.closeNode turns node) := by
  have hwalk : Op.Keeps (fun g : Containers => Tells g.kernel) (Containers.collectSubtree turns node) := by
    refine .bind .get fun g => .guard fun _ => ?_
    cases Forest.walk g.childNodes turns [node] [node] with
    | none => exact .throw _
    | some out => exact .pure _
  have hleaves : ∀ leaves : List SessionId,
      Op.Keeps (fun g : Containers => Tells g.kernel) (leaves.forM Containers.terminateLeaf) :=
    Op.Keeps.forM fun id => .mapError _ (.on fun g hg => hg.logs (logs_terminate g.kernel id))
  refine .bind hwalk fun subtree => .bind .get fun g => .bind (hleaves _) fun _ => .modify fun g hg => ?_
  rwa [(Containers.beside_removeSubtree g subtree node).1]

theorem afterCall {g : Containers} {a : GraphCall} (h : Tells g.kernel) (hallowed : Allowed g a) :
    Tells (afterCall g a).kernel := by
  cases a with
  | spawn pty ephemeral size => exact h.logs (.spawn pty ephemeral size hallowed)
  | reap m id => exact h.logs (logs_reap g.kernel m id)
  | frame m id f => exact h.logs (logs_onFrame g.kernel m id f)
  | terminate id => exact h.logs (logs_terminate g.kernel id)
  | use id u =>
    rw [Kernel.afterCall]
    cases hs : g.kernel.session id with
    | none => exact h
    | some s =>
      have hkept := Unmarked.next s hallowed
      exact h.quiet hs hkept.1 fun hend => hkept.2.1.trans hend
  | createNode turns kind parent =>
    rw [Kernel.afterCall, Containers.kernel_createNode]
    exact h
  | attachLeaf node leaf =>
    rw [Kernel.afterCall, Containers.kernel_attachLeaf]
    exact h
  | reparentNode node newParent =>
    rw [Kernel.afterCall, Containers.kernel_reparentNode]
    exact h
  | closeNode turns node => exact closeNode turns node g h

end Tells

/-- In every run of these calls the log is numbered, has one spawn for each leaf and before all
else that is told of it, an exit just where one is known and then once, and an end once at most
and only of a leaf that was ended. -/
theorem log_tells {acts : List GraphCall} (h : AllAlong afterCall Allowed (.new .new) acts) :
    Tells (acts.foldl afterCall (.new .new)).kernel :=
  h.invariant (P := fun g => Tells g.kernel) (fun _ _ hallowed hg => hg.afterCall hallowed) Tells.new

/-- A leaf whose child exits while a client is attached, and one that goes with its workspace. -/
def exitThenClose : List GraphCall :=
  [.spawn (.spawn ⟨80, 24, 0, 0⟩ [⟨[104, 105], some 7, none, none⟩]) false ⟨80, 24, 0, 0⟩,
    .frame ⟨0, 10⟩ ⟨1⟩ (.attach 1 (some 1) 1 false), .reap ⟨1, 10⟩ ⟨1⟩,
    .createNode 1 .workspace none, .spawn (.spawn ⟨80, 24, 0, 0⟩ []) false ⟨80, 24, 0, 0⟩,
    .attachLeaf ⟨1⟩ ⟨2⟩, .use ⟨2⟩ .ptyReadable, .closeNode 2 ⟨1⟩]

theorem log_tells_ended :
    let k := (exitThenClose.foldl afterCall (.new .new)).kernel
    (k.events.map fun e => (e.session, e.kind)) =
        [(⟨1⟩, .spawn), (⟨1⟩, .attach), (⟨1⟩, .exit), (⟨2⟩, .spawn), (⟨2⟩, .terminate)] ∧ Tells k :=
  have hids : ∀ g : Containers, g.kernel.ids.length ≤ 1 → ∀ pty ephemeral size,
      Allowed g (.spawn pty ephemeral size) :=
    fun _ hlen _ _ _ => Nat.lt_of_le_of_lt hlen (by simp)
  ⟨by decide, log_tells ⟨hids _ (by decide) _ _ _, trivial, trivial, trivial, hids _ (by decide) _ _ _,
    trivial, trivial, trivial, trivial⟩⟩

end Kernel

end Rill
