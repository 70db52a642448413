import Rill.Daemon.Trace
import Rill.Kernel.Delivery

/-!
# Input given to the children

DATA is all that a child is ever given. The daemon gives it to the child of a leaf when
it comes from a connection that is on the leaf and does not just watch it, the child is
not known to be dead and the input lease has not run out.
-/

namespace Rill.Kernel

open Lib Attach

-- ---------------------------------------------------------------------------
-- The PTY
-- ---------------------------------------------------------------------------

namespace Pty

/-- `x` is all that the PTY has accepted, and it is open. -/
def Took (x : List UInt8) (p : Pty) : Prop := p.input = x ∧ p.master = true

namespace Took

variable {x : List UInt8}

theorem turn {p : Pty} (h : p.Took x) : p.turn.2.Took x :=
  ⟨p.input_turn.trans h.1, (Extends.turn p).master.trans h.2⟩

theorem takeTurn : Op.Keeps (Took x) takeTurn := Op.Keeps.get_bind fun _ hp => hp.turn

theorem tryWait : Op.Keeps (Took x) tryWait := by
  refine Op.Keeps.bind Op.Keeps.get fun p => Op.Keeps.ite (fun _ => Op.Keeps.pure _) fun _ => ?_
  refine Op.Keeps.bind takeTurn fun t => Op.Keeps.guard fun _ => ?_
  refine Op.Keeps.bind Op.Keeps.get fun q => ?_
  exact Op.Keeps.bind (Op.Keeps.modify fun _ h => h) fun _ => Op.Keeps.pure _

theorem read (n : Nat) : Op.Keeps (Took x) (read n) := by
  refine Op.Keeps.bind Op.Keeps.get fun p => Op.Keeps.ite (fun _ => Op.Keeps.pure _) fun _ => ?_
  refine Op.Keeps.bind takeTurn fun t => Op.Keeps.guard fun _ => ?_
  refine Op.Keeps.bind Op.Keeps.get fun q => ?_
  exact Op.Keeps.bind (Op.Keeps.modify fun _ h => h) fun _ => Op.Keeps.pure _

theorem setWinsize (size : Winsize) : Op.Keeps (Took x) (setWinsize size) := by
  refine Op.Keeps.bind Op.Keeps.get fun p => Op.Keeps.ite (fun _ => Op.Keeps.throw _) fun _ => ?_
  refine Op.Keeps.bind takeTurn fun t => Op.Keeps.guard fun _ => ?_
  exact Op.Keeps.modify fun _ h => h

end Took

end Pty

-- ---------------------------------------------------------------------------
-- The session
-- ---------------------------------------------------------------------------

namespace Session

/-- The child has been given `x`, and no input waits to be given. -/
structure Given (x : List UInt8) (s : Session) : Prop where
  took : s.pty.Took x
  flushed : s.Flushed
  lasting : s.ephemeral = false

def listens (s : Session) (m : Moment) : Bool :=
  s.childAlive && !(s.expireInputLeaseIfDue m).leaseBlocksInput

namespace Given

variable {x : List UInt8} {s t : Session}

theorem spawn (turns : List Turn) (size : Winsize) : Given [] (.spawn (.spawn size turns) false size) :=
  ⟨⟨rfl, rfl⟩, rfl, rfl⟩

theorem of_eq (h : Given x s) (hpty : t.pty = s.pty) (hqueue : t.pendingInput = s.pendingInput)
    (hephemeral : t.ephemeral = s.ephemeral) : Given x t where
  took := hpty ▸ h.took
  flushed := hqueue.trans h.flushed
  lasting := hephemeral.trans h.lasting

theorem onPty {m : Op Pty Error α} (hm : Op.Keeps (Pty.Took x) m) : Op.Keeps (Given x) (onPty m) :=
  Op.Keeps.on fun _ h => ⟨hm _ h.took, h.flushed, h.lasting⟩

theorem detach (h : Given x s) : Given x s.detach := by
  refine ⟨?_, rfl, h.lasting⟩
  change (if s.ephemeral then (Pty.terminate.exec s.pty).2 else s.pty).Took x
  rw [h.lasting]
  exact h.took

theorem reap (m : Moment) : Op.Keeps (Given x) (reap m) := by
  refine Op.Keeps.bind (Op.Keeps.modify fun _ h => h.of_eq rfl rfl rfl) fun _ => ?_
  refine Op.Keeps.bind Op.Keeps.get fun s => Op.Keeps.ite (fun _ => Op.Keeps.pure _) fun _ => ?_
  refine Op.Keeps.bind (onPty .tryWait) fun status => ?_
  cases status with
  | none => exact Op.Keeps.pure _
  | some status =>
    exact Op.Keeps.bind (Op.Keeps.modify fun _ h => h.of_eq rfl rfl rfl) fun _ => Op.Keeps.pure _

theorem noteStalledRead : Op.Keeps (Given x) (modify noteStalledRead : Op Session Error Unit) :=
  Op.Keeps.modify fun _ h => h.of_eq rfl rfl rfl

theorem drainPtyAtMost (max : Option Nat) : Op.Keeps (Given x) (drainPtyAtMost max) := by
  refine Op.Keeps.bind Op.Keeps.get fun s => Op.Keeps.ite (fun _ => Op.Keeps.pure _) fun _ => ?_
  refine Op.Keeps.ite (fun _ => Op.Keeps.bind noteStalledRead fun _ => Op.Keeps.pure _) fun _ => ?_
  refine Op.Keeps.bind (onPty (.read _)) fun got => Op.Keeps.ite (fun _ => Op.Keeps.pure _) fun _ => ?_
  exact Op.Keeps.bind (Op.Keeps.modify fun _ h => h.of_eq rfl rfl rfl) fun _ => Op.Keeps.pure _

theorem onPtyReadable : Op.Keeps (Given x) onPtyReadable := by
  refine Op.Keeps.bind Op.Keeps.get fun s => ?_
  refine Op.Keeps.ite (fun _ => Op.Keeps.bind noteStalledRead fun _ => Op.Keeps.pure _) fun _ => ?_
  refine Op.Keeps.bind (onPty (.read _)) fun got => Op.Keeps.ite (fun _ => Op.Keeps.pure _) fun _ => ?_
  exact Op.Keeps.bind (Op.Keeps.modify fun _ h => h.of_eq rfl rfl rfl) fun _ => Op.Keeps.pure _

theorem applyResize (m : Moment) (size : Winsize) : Op.Keeps (Given x) (applyResize m size) := by
  refine Op.Keeps.bind (Op.Keeps.modify fun _ h => h.of_eq rfl rfl rfl) fun _ => ?_
  refine Op.Keeps.bind Op.Keeps.get fun s => Op.Keeps.ite (fun _ => Op.Keeps.pure _) fun _ => ?_
  refine Op.Keeps.bind (Op.Keeps.get_bind fun s h => ?_) fun _ => ?_
  · -- no input waits, so none goes ahead of the new size
    rw [h.flushed]
    exact h
  refine Op.Keeps.bind (Op.Keeps.modify fun _ h => h.of_eq rfl rfl rfl) fun _ => ?_
  refine Op.Keeps.bind (onPty (.setWinsize size)) fun _ => ?_
  exact Op.Keeps.modify fun _ h => h.of_eq rfl rfl rfl

theorem attach (h : Given x s) (m : Moment) (generation : UInt64) (observe : Bool) :
    Given x (s.attach m generation observe) := by
  unfold Session.attach
  split
  case isTrue => exact h.of_eq rfl rfl rfl
  case isFalse =>
    split
    case isTrue => exact h.of_eq rfl rfl rfl
    case isFalse => exact h.of_eq rfl rfl rfl

theorem onFrame (m : Moment) {f : Frame} (hf : f.isData = false) : Op.Keeps (Given x) (onFrame m f) := by
  cases f with
  | data => cases hf
  | attach generation sessionId protocol observe =>
    exact Op.Keeps.modify fun _ h => h.attach m generation observe
  | resize cols rows pxW pxH => exact applyResize m ⟨cols, rows, pxW, pxH⟩
  | credit n => exact Op.Keeps.modify fun _ h => h.of_eq rfl rfl rfl
  | exit | refused | checkpoint | delta | resyncRequest => exact Op.Keeps.pure _

/-- DATA is written whole or not at all, where nothing but a dead child keeps it from being
answered. -/
theorem applyData (h : Given x s) (m : Moment) (bytes : List UInt8)
    (hgoes : ((applyData m bytes).exec s).1 = .ok () ∨
      ((applyData m bytes).exec s).1 = .error .dead) :
    Given (x ++ if s.listens m then bytes else []) ((applyData m bytes).exec s).2 := by
  have hsteady : Steady s ((Session.onFrame m (.data bytes)).exec s).2 := onFrame_steady s m rfl
  have hflushed := h.flushed.onFrame m (.data bytes)
  have hrest (hinput : ((Session.applyData m bytes).exec s).2.pty.input =
      x ++ if s.listens m then bytes else []) :
      Given (x ++ if s.listens m then bytes else []) ((Session.applyData m bytes).exec s).2 :=
    ⟨⟨hinput, hsteady.pty.master.trans h.took.2⟩, hflushed, hsteady.ephemeral.trans h.lasting⟩
  refine hrest ?_
  rcases applyData_spec s m bytes with ⟨hdead, hrun⟩ | ⟨halive, hblocks, hrun⟩ |
    ⟨halive, hblocks, ⟨t, hrun, -, hinput⟩ | ⟨e, t, hrun, he⟩⟩
  · have hlistens : s.listens m = false := by simp [listens, childAlive, Option.isSome_iff_ne_none.mp hdead]
    simp [hrun, hlistens, h.took.1]
  · have hlistens : s.listens m = false := by simp [listens, hblocks]
    have hpty : (s.expireInputLeaseIfDue m).pty = s.pty := rfl
    simp [hrun, hlistens, hpty, h.took.1]
  · have hlistens : s.listens m = true := by simp [listens, childAlive, halive, hblocks]
    have hqueue : s.pendingInput = [] := h.flushed
    simp [hrun, hlistens, hinput h.took.2, h.took.1, hqueue]
  · rw [hrun] at hgoes
    rcases hgoes with hok | hdead
    · cases hok
    · exact absurd (Except.error.inj hdead) he

end Given

end Session

end Rill.Kernel

namespace Rill.Daemon

open Lib Attach Kernel Function

-- ---------------------------------------------------------------------------
-- Every leaf
-- ---------------------------------------------------------------------------

/-- `X id` is what the child of the leaf `id` has been given, and nothing where there is no leaf. -/
structure Given (X : SessionId → List UInt8) (d : Daemon) : Prop where
  leaf : ∀ id s, d.session id = some s → s.Given (X id)
  absent : ∀ id, d.session id = none → X id = []

namespace Given

variable {X : SessionId → List UInt8} {d d' : Daemon}

theorem of_session (h : Given X d) (hsession : d'.session = d.session) : Given X d' where
  leaf id s hs := h.leaf id s (hsession ▸ hs)
  absent id hnone := h.absent id (hsession ▸ hnone)

/-- One leaf has changed or is new, and no other child has been given anything. -/
theorem update {id : SessionId} {t : Session} {Y : SessionId → List UInt8} (h : Given X d)
    (hsession : d'.session = update d.session id (some t))
    (ht : t.Given (Y id)) (hothers : ∀ j, j ≠ id → Y j = X j) : Given Y d' where
  leaf j u hu := by
    rw [hsession] at hu
    by_cases hj : j = id
    · subst hj
      rw [update_self] at hu
      exact Option.some.inj hu ▸ ht
    · rw [update_of_ne hj] at hu
      exact hothers j hj ▸ h.leaf j u hu
  absent j hnone := by
    rw [hsession] at hnone
    by_cases hj : j = id
    · subst hj
      simp at hnone
    · rw [update_of_ne hj] at hnone
      exact (hothers j hj).trans (h.absent j hnone)

theorem map {f : SessionId → Session → Session} (h : Given X d)
    (hsession : d'.session = fun id => (d.session id).map (f id))
    (hf : ∀ id s, d.session id = some s → s.Given (X id) → (f id s).Given (X id)) : Given X d' where
  leaf id t ht := by
    rw [hsession] at ht
    obtain ⟨s, hs, rfl⟩ := Option.map_eq_some_iff.mp ht
    exact hf id s hs (h.leaf id s hs)
  absent id hnone := by
    rw [hsession] at hnone
    exact h.absent id (Option.map_eq_none_iff.mp hnone)

theorem bind {turns : List Turn} {size : Winsize} {isWorker : Bool} {d₀ : Daemon}
    (hbind : Daemon.bind (.spawn size turns) size isWorker = .ok d₀) : Given (fun _ => []) d₀ where
  leaf id s hs := by
    rw [(bind_ok hbind).2.2] at hs
    by_cases hid : id = d₀.defaultId
    · subst hid
      rw [update_self] at hs
      exact Option.some.inj hs ▸ .spawn turns size
    · rw [update_of_ne hid] at hs
      cases hs
  absent _ _ := rfl

theorem leave (c : Client) {id : SessionId} {s : Session} {x : List UInt8} (hs : s.Given x) :
    (c.leave id s).Given x := by
  unfold Client.leave
  split
  case isFalse => exact hs
  case isTrue =>
    unfold releaseRole
    split
    case isTrue => exact hs.of_eq rfl rfl rfl
    case isFalse => exact hs.detach

theorem dropClient (h : Given X d) (idx : Nat) : Given X (d.dropClient idx) := by
  cases hc : d.clients[idx]? with
  | none =>
    rw [dropClient_of_none hc]
    exact h
  | some c => exact h.map (session_dropClient hc) fun _ _ _ hs => leave c hs

theorem onLeaf (id : SessionId) (missing : α) {m : Op Session Kernel.Error α}
    (hm : ∀ x, Op.Keeps (Session.Given x) m) : Op.Keeps (Given X) (onLeaf id missing m) := by
  intro d h
  cases hs : d.session id with
  | none =>
    rw [exec_onLeaf_none hs]
    exact h
  | some s =>
    rw [exec_onLeaf hs]
    exact h.update (session_setSession hs _) (hm _ s (h.leaf id s hs)) fun _ _ => rfl

theorem onFrame (m : Moment) (id : SessionId) {f : Frame} (hf : f.isData = false) :
    Op.Keeps (Given X) (onFrame m id f) := by
  intro d h
  rw [onFrame_kernel]
  cases hs : d.session id with
  | none =>
    rw [Kernel.onFrame_none hs]
    exact h
  | some s =>
    exact h.update (Kernel.onFrame_spec hs m f).2 (.onFrame m hf s (h.leaf id s hs)) fun _ _ => rfl

theorem sendTo (idx : Nat) (q : Queued) : Op.Keeps (Given X) (sendTo idx q) := by
  refine Op.Keeps.get_bind fun d h => ?_
  cases d.clients[idx]? with
  | none => exact h
  | some c => exact h.of_session rfl

theorem setChipOr (r : Except Vt.Error Vt.VtEngine) : Op.Keeps (Given X) (setChipOr r) := by
  cases r with
  | ok chip => exact Op.Keeps.modify fun _ h => h.of_session rfl
  | error e => exact Op.Keeps.throw _

theorem emitCheckpoint (idx : Nat) (id : SessionId) : Op.Keeps (Given X) (emitCheckpoint idx id) := by
  refine Op.Keeps.bind Op.Keeps.get fun d => ?_
  cases d.session id with
  | none => exact Op.Keeps.pure _
  | some s =>
    refine Op.Keeps.bind Op.Keeps.get fun d => Op.Keeps.bind (setChipOr _) fun _ => ?_
    refine Op.Keeps.bind Op.Keeps.get fun d => ?_
    exact Op.Keeps.bind (Op.Keeps.modify fun _ h => h.of_session rfl) fun _ => sendTo _ _

theorem sendHistory (idx : Nat) (id : SessionId) : Op.Keeps (Given X) (sendHistory idx id) := by
  refine Op.Keeps.bind Op.Keeps.get fun d => ?_
  cases d.session id with
  | none => exact Op.Keeps.pure _
  | some s => exact Op.Keeps.ite (fun _ => Op.Keeps.pure _) fun _ => sendTo _ _

theorem acceptAttach (m : Moment) (idx : Nat) (id : SessionId) (generation : UInt64)
    (sessionId : Option UInt64) (protocol : UInt8) (observe : Bool) :
    Op.Keeps (Given X) (acceptAttach m idx id generation sessionId protocol observe) := by
  refine Op.Keeps.bind (onFrame m id rfl) fun _ => Op.Keeps.bind Op.Keeps.get fun d => ?_
  refine Op.Keeps.ite (fun _ => ?_) fun _ => Op.Keeps.pure _
  refine Op.Keeps.bind (Op.Keeps.modify fun d h => h.of_session rfl) fun _ => ?_
  refine Op.Keeps.ite (fun _ => emitCheckpoint idx id) fun _ => ?_
  exact Op.Keeps.ite (fun _ => sendHistory idx id) fun _ => Op.Keeps.pure _

theorem dispatchAttach (m : Moment) (idx : Nat) (generation : UInt64) (sessionId : Option UInt64)
    (protocol : UInt8) (observe : Bool) :
    Op.Keeps (Given X) (dispatchAttach m idx generation sessionId protocol observe) := by
  refine Op.Keeps.bind Op.Keeps.get fun d => Op.Keeps.ite (fun _ => sendTo _ _) fun _ => ?_
  cases d.resolveAttach sessionId with
  | none => exact sendTo _ _
  | some id =>
    exact Op.Keeps.ite (fun _ => sendTo _ _) fun _ =>
      acceptAttach m idx id generation sessionId protocol observe

theorem drainOnce (id : SessionId) : Op.Keeps (Given X) (drainOnce id) := by
  refine Op.Keeps.bind Op.Keeps.get fun d => Op.Keeps.ite (fun _ => ?_) fun _ => ?_
  · refine Op.Keeps.bind Op.Keeps.get fun d => Op.Keeps.ite (fun _ => ?_) fun _ => ?_
    · exact Op.Keeps.bind (onLeaf id () fun _ => .noteStalledRead) fun _ => Op.Keeps.pure _
    refine Op.Keeps.bind (onLeaf id none fun _ => .drainPtyAtMost _) fun got => ?_
    cases got with
    | none => exact Op.Keeps.pure _
    | some bytes =>
      refine Op.Keeps.bind Op.Keeps.get fun d => Op.Keeps.bind ?_ fun _ => Op.Keeps.pure _
      exact Op.Keeps.get_bind fun d h => h.of_session rfl
  · refine Op.Keeps.bind (onLeaf id 0 fun x => ?_) fun _ => Op.Keeps.pure _
    exact Op.Keeps.bind Op.Keeps.get fun s => Op.Keeps.ite (fun _ => .onPtyReadable) fun _ => Op.Keeps.pure _

theorem resyncLeaf (id : SessionId) : Op.Keeps (Given X) (resyncLeaf id) := by
  refine Op.Keeps.bind (onLeaf id none fun x => Op.Keeps.get_bind fun s h => ?_) fun history => ?_
  · exact h.of_eq rfl rfl rfl
  cases history with
  | none => exact Op.Keeps.pure _
  | some history =>
    refine Op.Keeps.bind Op.Keeps.get fun d => Op.Keeps.ite (fun _ => Op.Keeps.pure _) fun _ => ?_
    cases d.chip.resyncFromHistory history with
    | error e => exact Op.Keeps.throw _
    | ok r =>
      refine Op.Keeps.bind (Op.Keeps.modify fun _ h => h.of_session rfl) fun _ => ?_
      refine Op.Keeps.ite (fun _ => Op.Keeps.pure _) fun _ => ?_
      exact onLeaf id () fun _ => Op.Keeps.modify fun _ h => h.of_eq rfl rfl rfl

theorem flushOutbound : Op.Keeps (Given X) flushOutbound := by
  refine Op.Keeps.bind Op.Keeps.get fun d => Op.Keeps.bind (Op.Keeps.modify fun d' h => ?_) fun _ => ?_
  · exact h.map (funext fun id => d'.kernel.session_takeOutbound _ id) fun _ _ _ hs => hs.of_eq rfl rfl rfl
  refine Op.Keeps.bind (Op.Keeps.modify fun _ h => h.of_session rfl) fun _ => ?_
  split
  case h_1 => exact Op.Keeps.pure _
  case h_2 => exact Op.Keeps.modify fun _ h => h.dropClient _
  case h_3 => exact Op.Keeps.throw _

theorem fetchFrames (idx : Nat) : Op.Keeps (Given X) (fetchFrames idx) := by
  refine Op.Keeps.bind Op.Keeps.get fun d => ?_
  cases d.clients[idx]? with
  | none => exact Op.Keeps.pure _
  | some c =>
    have hdrop : Op.Keeps (Given X) (modify fun d => d.dropClient idx : DaemonM Unit) :=
      Op.Keeps.modify fun _ h => h.dropClient idx
    dsimp only
    split
    case h_1 =>
      exact Op.Keeps.bind (Op.Keeps.modify fun _ h => h.of_session rfl) fun _ => Op.Keeps.pure _
    case h_2 | h_3 => exact Op.Keeps.bind hdrop fun _ => Op.Keeps.pure _
    case h_4 =>
      split
      case h_1 => exact Op.Keeps.bind hdrop fun _ => Op.Keeps.pure _
      case h_2 =>
        exact Op.Keeps.bind (Op.Keeps.modify fun _ h => h.of_session rfl) fun _ => Op.Keeps.pure _

theorem reap (m : Moment) (id : SessionId) : Op.Keeps (Given X) (onKernel (Kernel.reap m id)) := by
  intro d h
  rw [exec_onKernel]
  cases hs : d.session id with
  | none =>
    rw [Kernel.reap_none hs]
    exact h
  | some s => exact h.update (Kernel.reap_spec hs m).2 (.reap m s (h.leaf id s hs)) fun _ _ => rfl

theorem spawnTabLeaf (turns : List Turn) : Op.Keeps (Given X) (spawnTabLeaf (.ok turns)) := by
  refine Op.Keeps.bind (Op.Keeps.lift _) fun turns => Op.Keeps.modify fun d h => ?_
  rcases d.kernel.session_spawnLeaf (.spawn (.spawn d.size turns) false d.size) with hsame | ⟨id, hid, hnew⟩
  · exact h.of_session hsame
  · have hspawned : Session.Given (X id) (.spawn (.spawn d.size turns) false d.size) :=
      h.absent id hid ▸ .spawn turns d.size
    exact h.update hnew hspawned fun _ _ => rfl

theorem act {a : Act} (ha : ∀ m idx f, a ≠ .frame m idx f) : Op.Keeps (Given X) a.run := by
  cases a with
  | accept stream => exact Op.Keeps.modify fun _ h => h.of_session rfl
  | spawn turns => exact spawnTabLeaf turns
  | fetch idx => exact Op.Keeps.bind (fetchFrames idx) fun _ => Op.Keeps.pure _
  | frame m idx f => exact absurd rfl (ha m idx f)
  | reap m id => exact reap m id
  | drain id => exact Op.Keeps.bind (drainOnce id) fun _ => Op.Keeps.pure _
  | flush => exact flushOutbound
  | resync id => exact resyncLeaf id

end Given

-- ---------------------------------------------------------------------------
-- Frames
-- ---------------------------------------------------------------------------

/-- What a frame of the connection at `idx` gives, and to the child of which leaf. -/
def gives (d : Daemon) (m : Moment) (idx : Nat) : Frame → Option (SessionId × List UInt8)
  | .data bytes => do
    let c ← d.clients[idx]?
    let id ← c.leaf
    let s ← d.session id
    if !c.observe && s.listens m then some (id, bytes) else none
  | _ => none

def inputOf (gs : List (SessionId × List UInt8)) (id : SessionId) : List UInt8 :=
  (gs.filter fun g => g.1 = id).flatMap Prod.snd

@[simp] theorem inputOf_nil (id : SessionId) : inputOf [] id = [] := rfl

@[simp] theorem inputOf_append (gs gs' : List (SessionId × List UInt8)) (id : SessionId) :
    inputOf (gs ++ gs') id = inputOf gs id ++ inputOf gs' id := by
  simp [inputOf]

theorem gives_of_not_data {f : Frame} (hf : f.isData = false) (d : Daemon) (m : Moment) (idx : Nat) :
    d.gives m idx f = none := by
  cases f with
  | data => cases hf
  | attach | credit | resize | exit | refused | checkpoint | delta | resyncRequest => rfl

/-- All of one DATA is given, or nothing. -/
theorem gives_cases (d : Daemon) (m : Moment) (idx : Nat) (f : Frame) :
    d.gives m idx f = none ∨ ∃ id bytes, f = .data bytes ∧ d.gives m idx f = some (id, bytes) := by
  cases hgives : d.gives m idx f with
  | none => exact .inl rfl
  | some g =>
    cases f with
    | data bytes =>
      obtain ⟨c, -, hgives⟩ := Option.bind_eq_some_iff.mp hgives
      obtain ⟨id, -, hgives⟩ := Option.bind_eq_some_iff.mp hgives
      obtain ⟨s, -, hgives⟩ := Option.bind_eq_some_iff.mp hgives
      split at hgives
      case isTrue => exact .inr ⟨id, bytes, rfl, hgives.symm⟩
      case isFalse => cases hgives
    | attach | credit | resize | exit | refused | checkpoint | delta | resyncRequest => cases hgives

namespace Given

variable {X : SessionId → List UInt8} {d d' : Daemon}

theorem dispatchFrame (h : Given X d) {m : Moment} {idx : Nat} {f : Frame}
    (hrun : (dispatchFrame m idx f).exec d = (.ok (), d')) :
    Given (fun id => X id ++ inputOf (d.gives m idx f).toList id) d' := by
  have hquiet {p : DaemonM Unit} (hp : Op.Keeps (Given X) p) (hexec : p.exec d = (.ok (), d'))
      (hnone : d.gives m idx f = none) : Given (fun id => X id ++ inputOf (d.gives m idx f).toList id) d' := by
    have hd := hp d h
    rw [hexec] at hd
    simpa [hnone] using hd
  by_cases hattach : f.isAttach = true
  · cases f with
    | attach generation sessionId protocol observe =>
      exact hquiet (dispatchAttach m idx generation sessionId protocol observe) hrun rfl
    | _ => cases hattach
  rw [exec_dispatchFrame (eq_false_of_ne_true hattach)] at hrun
  cases hleaf : d.leafOf idx with
  | none =>
    rw [hleaf] at hrun
    refine hquiet (Op.Keeps.modify fun _ h => h.dropClient idx) hrun ?_
    cases f with
    | data bytes =>
      cases hc : d.clients[idx]? with
      | none => simp [gives, hc]
      | some c =>
        have hnone : c.leaf = none := by simpa [leafOf, hc] using hleaf
        simp [gives, hc, hnone]
    | _ => rfl
  | some id =>
    rw [hleaf] at hrun
    obtain ⟨c, hc, hid⟩ := leafOf_eq_some.mp hleaf
    dsimp only at hrun
    split at hrun
    case isTrue hinput =>
      refine hquiet (Op.Keeps.pure ()) hrun ?_
      cases f with
      | data bytes =>
        have hobserve : c.observe = true := by simpa [observes, hc, isInput] using hinput
        simp [gives, hc, hid, hobserve]
      | _ => rfl
    case isFalse hinput =>
      rw [exec_dispatchOwn] at hrun
      obtain ⟨s, k, hs, rfl, hgoes, hk⟩ := onFrame_ok hrun
      have hs' : d.session id = some s := hs
      by_cases hdata : f.isData = true
      · cases f with
        | data bytes =>
          have hobserve : c.observe = false := by simpa [observes, hc, isInput] using hinput
          have hgives : d.gives m idx (.data bytes) = if s.listens m then some (id, bytes) else none := by
            simp [gives, hc, hid, hs', hobserve]
          have hgiven : ((Session.onFrame m (.data bytes)).exec s).2.Given
              (X id ++ if s.listens m then bytes else []) := (h.leaf id s hs').applyData m bytes hgoes
          refine h.update hk ?_ fun j hj => ?_
          · rw [hgives]
            cases hlistens : s.listens m with
            | true => simpa [hlistens, inputOf] using hgiven
            | false => simpa [hlistens, inputOf] using hgiven
          · rw [hgives]
            cases s.listens m with
            | true => simp [inputOf, Ne.symm hj]
            | false => simp
        | _ => cases hdata
      · have hdata' : f.isData = false := eq_false_of_ne_true hdata
        refine h.update hk ?_ fun j hj => ?_
        · rw [gives_of_not_data hdata']
          simpa using Session.Given.onFrame m hdata' s (h.leaf id s hs')
        · rw [gives_of_not_data hdata']
          simp

end Given

end Rill.Daemon
