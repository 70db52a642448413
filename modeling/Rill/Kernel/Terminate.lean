import Rill.Kernel.Close
import Rill.Kernel.Steady
import Rill.Lib.Redelivery

/-!
# Ending a leaf

`terminate` and `close_node` called again and again on a leaf, while the system
may fail any of the kills.
-/

namespace Rill

open Lib

namespace Kernel

-- ---------------------------------------------------------------------------
-- One kill
-- ---------------------------------------------------------------------------

namespace Pty

/-- The child was reaped before, or the system does not fail the next kill. -/
def Endable (p : Pty) : Prop := p.reaped.isSome = true ∨ p.turn.1.fault = none

theorem reaped_turn (p : Pty) : p.turn.2.reaped = p.reaped := by
  unfold turn runChild
  dsimp only
  split <;> rfl

/-- A kill succeeds just where the child ends up reaped. -/
theorem terminate_cases (p : Pty) :
    (p.Endable ∧ (terminate.exec p).1 = .ok () ∧ (terminate.exec p).2.reaped.isSome = true) ∨
      ∃ e, ¬ p.Endable ∧ (terminate.exec p).1 = .error e ∧ (terminate.exec p).2.reaped = none := by
  rw [terminate, Op.exec_get_bind]
  by_cases hreaped : p.reaped.isSome = true
  · rw [if_pos hreaped]
    exact .inl ⟨.inl hreaped, rfl, hreaped⟩
  · have hnone : p.turn.2.reaped = none := by
      rw [reaped_turn]
      simpa using hreaped
    have hiff : p.Endable ↔ p.turn.1.fault = none := or_iff_right hreaped
    rw [if_neg hreaped, Op.exec_bind_ok (exec_takeTurn p), Op.exec_modify_bind]
    cases hfault : p.turn.1.fault with
    | none =>
      refine .inl ⟨hiff.mpr hfault, rfl, ?_⟩
      change (p.turn.2.exited <|> some 9).isSome = true
      cases p.turn.2.exited <;> rfl
    | some fault =>
      have hnot : ¬ p.Endable := fun h => by
        rw [hiff, hfault] at h
        cases h
      cases fault with
      | timeout => exact .inr ⟨_, hnot, rfl, hnone⟩
      | io => exact .inr ⟨_, hnot, rfl, hnone⟩

end Pty

theorem Session.exec_terminate {s : Session} (hlive : s.terminated = false) :
    Session.terminate.exec s =
      ((Pty.terminate.exec s.pty).1, { s with terminated := true, pty := (Pty.terminate.exec s.pty).2 }) := by
  rw [Session.terminate, Op.exec_get_bind, if_neg (by simp [hlive]), Op.exec_modify_bind]
  rfl

def recorded (k : Kernel) (leaf : SessionId) : Nat :=
  k.events.countP fun e => e.kind = .terminate ∧ e.session = leaf

theorem recorded_record (k : Kernel) (id leaf : SessionId) :
    (k.record id .terminate).recorded leaf = k.recorded leaf + if id = leaf then 1 else 0 := by
  simp [recorded, record, List.countP_append, List.countP_cons]

theorem recorded_setSession (k : Kernel) (id leaf : SessionId) (s : Session) :
    (k.setSession id s).recorded leaf = k.recorded leaf := rfl

theorem terminate_other {id leaf : SessionId} (h : leaf ≠ id) (k : Kernel) :
    ((terminate id).exec k).2.session leaf = k.session leaf ∧
      ((terminate id).exec k).2.recorded leaf = k.recorded leaf := by
  cases hs : k.session id with
  | none =>
    rw [terminate, Op.exec_get_bind, hs]
    exact ⟨rfl, rfl⟩
  | some s =>
    cases hdead : s.terminated with
    | true =>
      rw [exec_terminate_of_terminated hs hdead]
      exact ⟨rfl, rfl⟩
    | false =>
      rw [exec_terminate hs hdead]
      have hsession : (k.setSession id (Session.terminate.exec s).2).session leaf = k.session leaf := by
        rw [session_setSession hs, Function.update_of_ne h]
      cases (Session.terminate.exec s).1 with
      | error e => exact ⟨hsession, rfl⟩
      | ok _ =>
        refine ⟨hsession, ?_⟩
        rw [recorded_record, if_neg h.symm, recorded_setSession, Nat.add_zero]

-- ---------------------------------------------------------------------------
-- Kills one after the other
-- ---------------------------------------------------------------------------

/-- The leaf is as it was when `n` terminations of it were recorded. -/
structure Untried (leaf : SessionId) (s : Session) (n : Nat) (k : Kernel) : Prop where
  session : k.session leaf = some s
  recorded : k.recorded leaf = n

structure Ended (leaf : SessionId) (n : Nat) (k : Kernel) : Prop where
  reaped : ∃ s, k.session leaf = some s ∧ s.terminated = true ∧ s.pty.reaped.isSome = true
  recorded : k.recorded leaf = n + 1

/-- `terminate` succeeds on `leaf` where it is called on each of `ids`, up to the first that
fails. -/
def endsLeaf (leaf : SessionId) : Kernel → List SessionId → Bool
  | _, [] => false
  | k, id :: ids =>
    match (terminate id).exec k with
    | (.ok _, k') => id = leaf || endsLeaf leaf k' ids
    | (.error _, _) => false

section
variable {leaf : SessionId} {s : Session} {n : Nat} {k : Kernel}

theorem Ended.terminate (h : Ended leaf n k) (id : SessionId) :
    Ended leaf n ((terminate id).exec k).2 := by
  obtain ⟨s, hs, hdead, hreaped⟩ := h.reaped
  by_cases hid : leaf = id
  · subst hid
    rw [exec_terminate_of_terminated hs hdead]
    exact h
  · obtain ⟨hsession, hrecorded⟩ := terminate_other hid k
    exact ⟨⟨s, hsession.trans hs, hdead, hreaped⟩, hrecorded.trans h.recorded⟩

theorem Ended.forM (h : Ended leaf n k) (ids : List SessionId) :
    Ended leaf n ((ids.forM Kernel.terminate).exec k).2 := by
  have hkeeps : Op.Keeps (Ended leaf n) (ids.forM Kernel.terminate) :=
    Op.Keeps.forM (fun id k h => h.terminate id) ids
  exact hkeeps k h

theorem Untried.terminate_other (h : Untried leaf s n k) {id : SessionId} (hid : leaf ≠ id) :
    Untried leaf s n ((terminate id).exec k).2 := by
  obtain ⟨hsession, hrecorded⟩ := Kernel.terminate_other hid k
  exact ⟨hsession.trans h.session, hrecorded.trans h.recorded⟩

/-- The first kill of a live leaf, where the system does not fail it. -/
theorem Untried.terminate_leaf (h : Untried leaf s n k) (hlive : s.terminated = false)
    (hend : s.pty.Endable) :
    ∃ k', (terminate leaf).exec k = (.ok (), k') ∧ Ended leaf n k' := by
  obtain ⟨-, hok, hreaped⟩ | ⟨e, hnot, -⟩ := s.pty.terminate_cases
  · let t : Session := { s with terminated := true, pty := (Pty.terminate.exec s.pty).2 }
    refine ⟨(k.setSession leaf t).record leaf .terminate, ?_, ⟨t, ?_, rfl, hreaped⟩, ?_⟩
    · rw [exec_terminate h.session hlive, Session.exec_terminate hlive, hok]
    · exact (congrFun (session_setSession h.session t) leaf).trans (Function.update_self ..)
    · rw [recorded_record, if_pos rfl, recorded_setSession, h.recorded]
  · exact absurd hend hnot

/-- The leaf is ended by the calls, or they have not come to it. -/
theorem Untried.forM (h : Untried leaf s n k) (hlive : s.terminated = false)
    (hend : s.pty.Endable) (ids : List SessionId) :
    (endsLeaf leaf k ids = true ∧ Ended leaf n ((ids.forM terminate).exec k).2) ∨
      (endsLeaf leaf k ids = false ∧ Untried leaf s n ((ids.forM terminate).exec k).2 ∧
        (leaf ∈ ids → ((ids.forM terminate).exec k).1 ≠ .ok ())) := by
  induction ids generalizing k with
  | nil => exact .inr ⟨rfl, h, nofun⟩
  | cons id ids ih =>
    rw [endsLeaf, Op.forM_cons, Op.exec_bind]
    by_cases hid : leaf = id
    · subst hid
      obtain ⟨k', hrun, hended⟩ := h.terminate_leaf hlive hend
      rw [hrun]
      exact .inl ⟨by simp, hended.forM ids⟩
    · have hrest := h.terminate_other hid
      generalize (terminate id).exec k = r at hrest ⊢
      rcases r with ⟨e | _, k'⟩
      · exact .inr ⟨rfl, hrest, fun _ => nofun⟩
      · have hne : ¬ id = leaf := fun heq => hid heq.symm
        simpa [hne, hid] using ih hrest

end

end Kernel

namespace Containers

open Kernel

-- ---------------------------------------------------------------------------
-- The calls
-- ---------------------------------------------------------------------------

inductive Attempt
  | terminate (id : SessionId)
  | closeNode (turns : Nat) (node : NodeId)
  deriving DecidableEq, Repr

namespace Attempt

def run : Attempt → Op Containers Stop Unit
  | terminate id => terminateLeaf id
  | closeNode turns node => Containers.closeNode turns node

def targets (g : Containers) : Attempt → List SessionId
  | terminate id => [id]
  | closeNode turns node =>
    match ((collectSubtree turns node).exec g).1 with
    | .ok subtree => g.leavesIn subtree
    | .error _ => []

theorem run_kernel (g : Containers) (call : Attempt) :
    (call.run.exec g).2.kernel = (((call.targets g).forM Kernel.terminate).exec g.kernel).2 ∧
      ((call.run.exec g).1 = .ok () →
        (((call.targets g).forM Kernel.terminate).exec g.kernel).1 = .ok ()) := by
  cases call with
  | terminate id =>
    have hone : (([id] : List SessionId).forM Kernel.terminate).exec g.kernel =
        (Kernel.terminate id).exec g.kernel := by
      rw [Op.forM_cons, Op.exec_bind]
      rcases (Kernel.terminate id).exec g.kernel with ⟨e | _, k⟩ <;> rfl
    have hrun : (run (.terminate id)).exec g =
        (((Kernel.terminate id).exec g.kernel).1.mapError .kernel,
          { g with kernel := ((Kernel.terminate id).exec g.kernel).2 }) := rfl
    rw [targets, hone, hrun]
    rcases (Kernel.terminate id).exec g.kernel with ⟨e | _, k⟩
    · exact ⟨rfl, fun h => by cases h⟩
    · exact ⟨rfl, fun _ => rfl⟩
  | closeNode turns node =>
    have hrun : (run (.closeNode turns node)).exec g = (Containers.closeNode turns node).exec g := rfl
    rw [targets, hrun]
    by_cases hnode : g.has node = true
    · cases hwalk : Forest.walk g.childNodes turns [node] [node] with
      | none =>
        have hcollect : (collectSubtree turns node).exec g = (.error .running, g) := by
          rw [exec_collectSubtree hnode, hwalk]
          rfl
        rw [Containers.closeNode, Op.exec_bind_error hcollect, hcollect]
        exact ⟨rfl, fun h => by cases h⟩
      | some subtree =>
        rw [exec_closeNode hnode hwalk, exec_collectSubtree hnode, hwalk]
        dsimp only [Option.elim]
        rcases ((g.leavesIn subtree).forM Kernel.terminate).exec g.kernel with ⟨e | _, k⟩
        · exact ⟨rfl, fun h => by cases h⟩
        · exact ⟨(beside_removeSubtree _ subtree node).1, fun _ => rfl⟩
    · have hno : g.has node = false := by simpa using hnode
      have hcollect : (collectSubtree turns node).exec g = (.error .unknownNode, g) := by
        rw [collectSubtree, Op.exec_get_bind, Op.exec_guard_pos (by simp [hno])]
      rw [exec_closeNode_of_not_has hno, hcollect]
      exact ⟨rfl, fun h => by cases h⟩

end Attempt

def after (g : Containers) (calls : List Attempt) : Containers := deliverAll Attempt.run g calls

@[simp] theorem after_cons (g : Containers) (call : Attempt) (calls : List Attempt) :
    after g (call :: calls) = after (call.run.exec g).2 calls := rfl

/-- One of the calls ends `leaf` without an error. -/
def succeeds (leaf : SessionId) : Containers → List Attempt → Bool
  | _, [] => false
  | g, call :: calls =>
    endsLeaf leaf g.kernel (call.targets g) || succeeds leaf (call.run.exec g).2 calls

/-- What is promised of a leaf on which `calls` were made: a call that ends it and answers `Ok`
leaves its child reaped, the first success is recorded and no other, and a node above the leaf
can be closed as soon as the system lets go of the leaves under it. -/
structure Terminates (g : Containers) (leaf : SessionId) (calls : List Attempt) : Prop where
  reaped : ∀ call : Attempt, leaf ∈ call.targets (after g calls) →
    (call.run.exec (after g calls)).1 = .ok () →
    ∃ s, (call.run.exec (after g calls)).2.kernel.session leaf = some s ∧ s.pty.reaped.isSome = true
  recorded : (after g calls).kernel.recorded leaf =
    g.kernel.recorded leaf + if succeeds leaf g calls then 1 else 0
  retried : ∀ turns node subtree,
    (collectSubtree turns node).exec (after g calls) = (.ok subtree, after g calls) →
    leaf ∈ (after g calls).leavesIn subtree →
    (∀ l ∈ (after g calls).leavesIn subtree,
      ∃ t, (after g calls).kernel.session l = some t ∧ t.pty.Endable) →
    ∃ g', (closeNode turns node).exec (after g calls) = (.ok (), g') ∧
      (∃ s, g'.kernel.session leaf = some s ∧ s.pty.reaped.isSome = true) ∧
      g'.kernel.recorded leaf = g.kernel.recorded leaf + 1 ∧ ∀ m ∈ subtree, g'.has m = false

section
variable {g : Containers} {leaf : SessionId} {s : Session} {n : Nat}

theorem ended_call (h : Ended leaf n g.kernel) (call : Attempt) :
    Ended leaf n (call.run.exec g).2.kernel := by
  rw [(call.run_kernel g).1]
  exact h.forM _

theorem untried_call (h : Untried leaf s n g.kernel) (hlive : s.terminated = false)
    (hend : s.pty.Endable) (call : Attempt) :
    (endsLeaf leaf g.kernel (call.targets g) = true ∧ Ended leaf n (call.run.exec g).2.kernel) ∨
      (endsLeaf leaf g.kernel (call.targets g) = false ∧
        Untried leaf s n (call.run.exec g).2.kernel ∧
        (leaf ∈ call.targets g → (call.run.exec g).1 ≠ .ok ())) := by
  obtain ⟨hkernel, hanswer⟩ := call.run_kernel g
  rw [hkernel]
  obtain hended | ⟨hnot, hrest, herror⟩ := h.forM hlive hend (call.targets g)
  · exact .inl hended
  · exact .inr ⟨hnot, hrest, fun hleaf hok => herror hleaf (hanswer hok)⟩

/-- After any calls the leaf is ended and one of them succeeded, or it is as it was. -/
theorem ended_or_untried (h : Untried leaf s n g.kernel) (hlive : s.terminated = false)
    (hend : s.pty.Endable) (calls : List Attempt) :
    (succeeds leaf g calls = true ∧ Ended leaf n (after g calls).kernel) ∨
      (succeeds leaf g calls = false ∧ Untried leaf s n (after g calls).kernel) := by
  induction calls generalizing g with
  | nil => exact .inr ⟨rfl, h⟩
  | cons call calls ih =>
    rw [succeeds]
    obtain ⟨hsucceeds, hended⟩ | ⟨hnot, hrest, -⟩ := untried_call h hlive hend call
    · have hcalls : Ended leaf n (after g (call :: calls)).kernel :=
        deliverAll_invariant (I := fun g : Containers => Ended leaf n g.kernel)
          (fun _ call h => ended_call h call) hended calls
      exact .inl ⟨by simp [hsucceeds], hcalls⟩
    · simpa [hnot] using ih hrest

/-- An `Ok` says that the leaf is ended. -/
theorem ended_of_ok (h : Ended leaf n g.kernel ∨ Untried leaf s n g.kernel)
    (hlive : s.terminated = false) (hend : s.pty.Endable) {call : Attempt}
    (hleaf : leaf ∈ call.targets g) (hok : (call.run.exec g).1 = .ok ()) :
    Ended leaf n (call.run.exec g).2.kernel := by
  obtain hended | huntried := h
  · exact ended_call hended call
  · obtain ⟨-, hended⟩ | ⟨-, -, herror⟩ := untried_call huntried hlive hend call
    · exact hended
    · exact absurd hok (herror hleaf)

theorem terminate_of_endable {k : Kernel} {id : SessionId} {s : Session}
    (hs : k.session id = some s) (hend : s.pty.Endable) : ((terminate id).exec k).1 = .ok () := by
  rw [terminate_answer, hs, Option.elim]
  cases hlive : s.terminated with
  | true => rw [Session.exec_terminate_of_terminated hlive]
  | false =>
    rw [Session.exec_terminate hlive]
    obtain ⟨-, hok, -⟩ | ⟨e, hnot, -⟩ := s.pty.terminate_cases
    · exact hok
    · exact absurd hend hnot

/-- A node is closed where each leaf under it can be ended. -/
theorem exec_closeNode_of_endable {turns : Nat} {node : NodeId} {subtree : List NodeId}
    (hcollect : (collectSubtree turns node).exec g = (.ok subtree, g))
    (hleaves : ∀ l ∈ g.leavesIn subtree, ∃ t, g.kernel.session l = some t ∧ t.pty.Endable) :
    ∃ g', (closeNode turns node).exec g = (.ok (), g') ∧ ∀ m ∈ subtree, g'.has m = false := by
  have hends : ∀ l ∈ g.leavesIn subtree, ((terminate l).exec g.kernel).1 = .ok () := by
    intro l hl
    obtain ⟨t, ht, hend⟩ := hleaves l hl
    exact terminate_of_endable ht hend
  obtain ⟨kernel, hrun, -⟩ := exec_forM_terminate hends
  refine ⟨({ g with kernel } : Containers).removeSubtree subtree node, ?_, fun m hm => ?_⟩
  · rw [closeNode, Op.exec_bind_ok hcollect, Op.exec_get_bind, Op.exec_bind, exec_forM_terminateLeaf,
      hrun]
    rfl
  · have hgone : (({ g with kernel } : Containers).removeSubtree subtree node).node? m = none := by
      rw [node?_removeSubtree, if_pos hm]
    rw [Bool.eq_false_iff, Ne, has_iff]
    rintro ⟨t, ht⟩
    simp [hgone] at ht

theorem terminates_of_endable (hs : g.kernel.session leaf = some s) (hlive : s.terminated = false)
    (hend : s.pty.Endable) (calls : List Attempt) : Terminates g leaf calls := by
  have hfirst : Untried leaf s (g.kernel.recorded leaf) g.kernel := ⟨hs, rfl⟩
  have hcalls := ended_or_untried hfirst hlive hend calls
  have hstate : Ended leaf (g.kernel.recorded leaf) (after g calls).kernel ∨
      Untried leaf s (g.kernel.recorded leaf) (after g calls).kernel := hcalls.imp And.right And.right
  refine ⟨fun call hleaf hok => ?_, ?_, fun turns node subtree hcollect hleaf hleaves => ?_⟩
  · obtain ⟨t, ht, -, hreaped⟩ := (ended_of_ok hstate hlive hend hleaf hok).reaped
    exact ⟨t, ht, hreaped⟩
  · obtain ⟨hsucceeds, hended⟩ | ⟨hnot, huntried⟩ := hcalls
    · rw [hsucceeds, if_pos rfl, hended.recorded]
    · rw [hnot, if_neg Bool.false_ne_true, huntried.recorded, Nat.add_zero]
  · obtain ⟨g', hrun, hgone⟩ := exec_closeNode_of_endable hcollect hleaves
    have htargets : leaf ∈ (Attempt.closeNode turns node).targets (after g calls) := by
      rw [Attempt.targets, hcollect]
      exact hleaf
    have hok : ((Attempt.closeNode turns node).run.exec (after g calls)).1 = .ok () :=
      congrArg Prod.fst hrun
    have hended := ended_of_ok hstate hlive hend htargets hok
    have hafter : ((Attempt.closeNode turns node).run.exec (after g calls)).2 = g' :=
      congrArg Prod.snd hrun
    rw [hafter] at hended
    obtain ⟨t, ht, -, hreaped⟩ := hended.reaped
    exact ⟨g', hrun, ⟨t, ht, hreaped⟩, hended.recorded, hgone⟩

/-- A kill that failed marks the session as terminated, and nothing kills the child again. -/
theorem terminate_again (hs : g.kernel.session leaf = some s) (hlive : s.terminated = false)
    (hend : ¬ s.pty.Endable) :
    ((Attempt.terminate leaf).run.exec (after g [.terminate leaf])).1 = .ok () ∧
      ∃ t, ((Attempt.terminate leaf).run.exec (after g [.terminate leaf])).2.kernel.session leaf =
        some t ∧ t.pty.reaped = none := by
  obtain ⟨hyes, -⟩ | ⟨e, -, herror, hreaped⟩ := s.pty.terminate_cases
  · exact absurd hyes hend
  · let t : Session := { s with terminated := true, pty := (Pty.terminate.exec s.pty).2 }
    have hkernel : (after g [.terminate leaf]).kernel = g.kernel.setSession leaf t := by
      change ((terminate leaf).exec g.kernel).2 = _
      rw [exec_terminate hs hlive, Session.exec_terminate hlive, herror]
    have ht : (after g [.terminate leaf]).kernel.session leaf = some t := by
      rw [hkernel, session_setSession hs, Function.update_self]
    have hagain := exec_terminate_of_terminated ht rfl
    generalize after g [.terminate leaf] = g' at ht hagain ⊢
    have hrun : (Attempt.terminate leaf).run.exec g' =
        (((terminate leaf).exec g'.kernel).1.mapError .kernel,
          { g' with kernel := ((terminate leaf).exec g'.kernel).2 }) := rfl
    rw [hrun, hagain]
    exact ⟨rfl, t, ht, hreaped⟩

/-- An `Ok` means a reaped child, whatever was called before, exactly when the system does not
fail the first kill of it. -/
theorem terminates_iff (hs : g.kernel.session leaf = some s) (hlive : s.terminated = false) :
    (∀ calls, Terminates g leaf calls) ↔ s.pty.Endable := by
  refine ⟨fun h => ?_, terminates_of_endable hs hlive⟩
  by_contra hend
  obtain ⟨hok, t, ht, hnone⟩ := terminate_again hs hlive hend
  have htargets : leaf ∈ (Attempt.terminate leaf).targets (after g [.terminate leaf]) :=
    List.mem_singleton_self leaf
  obtain ⟨t', ht', hreaped⟩ := (h [.terminate leaf]).reaped (.terminate leaf) htargets hok
  obtain rfl : t = t' := Option.some.inj (ht.symm.trans ht')
  simp [hnone] at hreaped

end

/-- The tab is closed, and then its leaf is terminated once more. -/
theorem terminates_iff_tab : Terminates tabWithLeaf ⟨1⟩ [.closeNode 3 ⟨2⟩, .terminate ⟨1⟩] := by
  have hleaf : ∃ s, tabWithLeaf.kernel.session ⟨1⟩ = some s ∧ s.terminated = false ∧
      s.pty.turn.1.fault = none :=
    ⟨.spawn (.spawn ⟨80, 24, 0, 0⟩ []) false ⟨80, 24, 0, 0⟩, rfl, rfl, rfl⟩
  obtain ⟨s, hs, hlive, hfault⟩ := hleaf
  exact (terminates_iff hs hlive).mpr (.inr hfault) _

/-- A tab with one leaf, whose child outlives the two seconds after the kill. -/
def tabWithStuckLeaf : Containers :=
  ((attachLeaf ⟨2⟩ ⟨1⟩).exec { workspaceWithTab with
    kernel := (Kernel.new.spawnLeaf (.spawn (.spawn ⟨80, 24, 0, 0⟩ [⟨[], none, some .timeout, none⟩])
      false ⟨80, 24, 0, 0⟩)).2 }).2

/-- Once a kill has failed, `close_node` answers `Ok`, with the child unreaped and nothing
recorded. -/
theorem closeNode_unreaped :
    (∃ s, tabWithStuckLeaf.kernel.session ⟨1⟩ = some s ∧ s.terminated = false) ∧
      ((closeNode 3 ⟨2⟩).exec (after tabWithStuckLeaf [.terminate ⟨1⟩])).1 = .ok () ∧
      ((closeNode 3 ⟨2⟩).exec (after tabWithStuckLeaf [.terminate ⟨1⟩])).2.kernel.recorded ⟨1⟩ = 0 ∧
      ¬ Terminates tabWithStuckLeaf ⟨1⟩ [.terminate ⟨1⟩] := by
  have hok : ((closeNode 3 ⟨2⟩).exec (after tabWithStuckLeaf [.terminate ⟨1⟩])).1 = .ok () := rfl
  refine ⟨⟨_, rfl, rfl⟩, hok, by decide, fun h => ?_⟩
  obtain ⟨s, hs, hreaped⟩ := h.reaped (.closeNode 3 ⟨2⟩) (by decide) hok
  have hnone : ∀ s, ((closeNode 3 ⟨2⟩).exec (after tabWithStuckLeaf [.terminate ⟨1⟩])).2.kernel.session
      ⟨1⟩ = some s → s.pty.reaped = none := by
    rintro _ ⟨⟩
    rfl
  have hnot := hnone s hs
  simp [hnot] at hreaped

end Containers

end Rill
