import Rill.Daemon.Trace
import Rill.Kernel.Input

/-!
# Batches

What the frames of one read do. The connection is named by its place, and the
place outlives it: once a frame has dropped it, the frames behind are the next
connection's.
-/

namespace Rill.Daemon

open Lib Attach Kernel Function

-- ---------------------------------------------------------------------------
-- Which leaf a frame acts on
-- ---------------------------------------------------------------------------

/-- The daemon's own answer to an ATTACH, if it does not let it through. -/
def refusal (d : Daemon) (idx : Nat) (sessionId : Option UInt64) (protocol : UInt8)
    (observe : Bool) : Option RefuseReason :=
  if !Frame.protocolSupported protocol then some .protocolMismatch
  else
    match d.resolveAttach sessionId with
    | none => some .invalid
    | some id =>
      if d.attached id && !decide (d.leafOf idx = some id) && !observe then some .alreadyAttached
      else none

theorem exec_dispatchAttach (m : Moment) (idx : Nat) (generation : UInt64)
    (sessionId : Option UInt64) (protocol : UInt8) (observe : Bool) (d : Daemon) :
    (∃ reason, d.refusal idx sessionId protocol observe = some reason ∧
        (dispatchAttach m idx generation sessionId protocol observe).exec d =
          (refuse idx reason).exec d) ∨
      ∃ id, d.refusal idx sessionId protocol observe = none ∧
        d.resolveAttach sessionId = some id ∧
        (dispatchAttach m idx generation sessionId protocol observe).exec d =
          (acceptAttach m idx id generation sessionId protocol observe).exec d := by
  unfold refusal
  rw [dispatchAttach, Op.exec_get_bind]
  split
  case isTrue => exact .inl ⟨_, rfl, rfl⟩
  case isFalse =>
    cases hid : d.resolveAttach sessionId with
    | none => exact .inl ⟨_, rfl, rfl⟩
    | some id =>
      dsimp only
      split
      case isTrue => exact .inl ⟨_, rfl, rfl⟩
      case isFalse => exact .inr ⟨id, rfl, rfl, rfl⟩

/-- The leaf a frame of the connection at `idx` may act on. -/
def Targets (d : Daemon) (idx : Nat) (f : Frame) (id : SessionId) : Prop :=
  match f with
  | .attach _ sessionId protocol observe =>
    d.refusal idx sessionId protocol observe = none ∧ d.resolveAttach sessionId = some id
  | other => d.leafOf idx = some id ∧ (d.observes idx && isInput other) = false

/-- Only the client at `idx` may change, and only the leaves in `P`. -/
def Within (d₀ : Daemon) (idx : Nat) (P : SessionId → Prop) (d : Daemon) : Prop :=
  (∃ g, d.clients = d₀.clients.modify idx g) ∧ ∀ id, ¬ P id → d.session id = d₀.session id

namespace Within

variable {d₀ d : Daemon} {idx : Nat} {P : SessionId → Prop}

theorem refl (d : Daemon) (idx : Nat) (P : SessionId → Prop) : Within d idx P d := by
  refine ⟨⟨id, ?_⟩, fun _ _ => rfl⟩
  rw [List.modify_id]

theorem modifyClient (h : Within d₀ idx P d) (g : Client → Client) :
    Within d₀ idx P (d.modifyClient idx g) := by
  obtain ⟨⟨g₀, hg₀⟩, hsession⟩ := h
  refine ⟨⟨g ∘ g₀, ?_⟩, hsession⟩
  rw [clients_modifyClient, hg₀, List.modify_modify_eq]

theorem sendTo (q : Queued) : Op.Keeps (Within d₀ idx P) (sendTo idx q) := by
  refine Op.Keeps.get_bind fun d hd => ?_
  cases hc : d.clients[idx]? with
  | none => exact hd
  | some c =>
    dsimp only
    rw [Op.exec_modify_bind]
    exact hd.modifyClient _

theorem onFrame (m : Moment) {id : SessionId} (hid : P id) (f : Frame) :
    Op.Keeps (Within d₀ idx P) (onFrame m id f) := by
  intro d hd
  refine ⟨?_, fun j hj => ?_⟩
  · rw [onFrame_kernel]
    exact hd.1
  · have hne : j ≠ id := fun h => hj (h ▸ hid)
    rw [onFrame_others m f d hne]
    exact hd.2 j hj

theorem emitCheckpoint (id : SessionId) : Op.Keeps (Within d₀ idx P) (emitCheckpoint idx id) := by
  refine Op.Keeps.bind Op.Keeps.get fun d => ?_
  split
  case h_1 => exact Op.Keeps.pure _
  case h_2 s _ =>
    refine Op.Keeps.bind Op.Keeps.get fun d => Op.Keeps.bind ?_ fun _ => ?_
    · unfold setChipOr
      split
      case h_1 => exact Op.Keeps.modify fun d hd => hd
      case h_2 => exact Op.Keeps.throw _
    · refine Op.Keeps.bind Op.Keeps.get fun d => ?_
      exact Op.Keeps.bind (Op.Keeps.modify fun d hd => hd) fun _ => sendTo _

theorem sendHistory (id : SessionId) : Op.Keeps (Within d₀ idx P) (sendHistory idx id) := by
  refine Op.Keeps.bind Op.Keeps.get fun d => ?_
  split
  case h_1 => exact Op.Keeps.pure _
  case h_2 => exact Op.Keeps.ite (fun _ => Op.Keeps.pure _) fun _ => sendTo _

theorem acceptAttach (m : Moment) {id : SessionId} (hid : P id) (generation : UInt64)
    (sessionId : Option UInt64) (protocol : UInt8) (observe : Bool) :
    Op.Keeps (Within d₀ idx P)
      (acceptAttach m idx id generation sessionId protocol observe) := by
  refine Op.Keeps.bind (onFrame m hid _) fun _ => Op.Keeps.bind Op.Keeps.get fun d => ?_
  refine Op.Keeps.ite (fun _ => ?_) fun _ => Op.Keeps.pure _
  refine Op.Keeps.bind (Op.Keeps.modify fun d hd => hd.modifyClient _) fun _ => ?_
  refine Op.Keeps.ite (fun _ => emitCheckpoint id) fun _ => ?_
  exact Op.Keeps.ite (fun _ => sendHistory id) fun _ => Op.Keeps.pure _

end Within

/-- What a frame of the connection at `idx` may do: it acts on that connection,
which it may drop, and on the leaf it targets. -/
structure Own (d : Daemon) (idx : Nat) (f : Frame) (d' : Daemon) : Prop where
  clients : d'.clients = d.clients.eraseIdx idx ∨ ∃ g, d'.clients = d.clients.modify idx g
  sessions : ∀ id, ¬ d.Targets idx f id → d'.session id = d.session id

theorem Within.own {d d' : Daemon} {idx : Nat} {f : Frame}
    (h : Within d idx (d.Targets idx f) d') : Own d idx f d' := ⟨.inr h.1, h.2⟩

/-- Whatever comes of it, a frame acts for the connection at `idx`. -/
theorem dispatchFrame_own (m : Moment) (idx : Nat) (f : Frame) (d : Daemon) :
    Own d idx f ((dispatchFrame m idx f).exec d).2 := by
  have hrefl := Within.refl d idx (d.Targets idx f)
  by_cases hf : f.isAttach = true
  · cases f with
    | attach generation sessionId protocol observe =>
      change Own d idx _ ((dispatchAttach m idx generation sessionId protocol observe).exec d).2
      rcases exec_dispatchAttach m idx generation sessionId protocol observe d with
        ⟨reason, -, hrun⟩ | ⟨id, hlet, hid, hrun⟩
      · rw [hrun]
        exact (Within.sendTo _ d hrefl).own
      · rw [hrun]
        exact (Within.acceptAttach m ⟨hlet, hid⟩ generation sessionId protocol observe d hrefl).own
    | data | credit | resize | exit | refused | checkpoint | delta | resyncRequest => cases hf
  · rw [Bool.not_eq_true] at hf
    have htargets : ∀ id, d.Targets idx f id =
        (d.leafOf idx = some id ∧ (d.observes idx && isInput f) = false) := by
      intro id
      cases f with
      | attach => cases hf
      | data | credit | resize | exit | refused | checkpoint | delta | resyncRequest => rfl
    rw [exec_dispatchFrame hf]
    cases hleaf : d.leafOf idx with
    | none =>
      change Own d idx f (d.dropClient idx)
      refine ⟨.inl (clients_dropClient d idx), fun id _ => ?_⟩
      cases hc : d.clients[idx]? with
      | none => rw [dropClient_of_none hc]
      | some c =>
        have hnone : c.leaf = none := by simpa [leafOf, hc] using hleaf
        rw [session_dropClient hc, leave_none_map hnone]
    | some id =>
      dsimp only
      split
      case isTrue => exact hrefl.own
      case isFalse hinput =>
        rw [exec_dispatchOwn]
        refine Within.own (Within.onFrame m ?_ f _ (hrefl.modifyClient _))
        rw [htargets]
        exact ⟨hleaf, by simpa using hinput⟩

-- ---------------------------------------------------------------------------
-- Frames that do nothing
-- ---------------------------------------------------------------------------

/-- The frame leaves the daemon exactly as it is. -/
def Idle (d : Daemon) (idx : Nat) (m : Moment) (f : Frame) : Prop :=
  (dispatchFrame m idx f).exec d = (.ok (), d)

/-- An ATTACH that changes nothing: refused to nobody, or one observer more where
no more are counted, with nothing to show and nobody's role to change. -/
def InertAttach (d : Daemon) (idx : Nat) (sessionId : Option UInt64) (protocol : UInt8)
    (observe : Bool) : Prop :=
  match d.refusal idx sessionId protocol observe with
  | some _ => d.clients[idx]? = none
  | none => observe = true ∧ ∃ id s, d.resolveAttach sessionId = some id ∧
      d.session id = some s ∧ s.observers = u32Max ∧
      match d.clients[idx]? with
      | none => protocol = protocol2 →
          (chipFrom d.chip s.history).map (fun chip => chip.snapshot.2) = .ok d.chip
      | some c => c.setRole id true protocol = c ∧ protocol ≠ protocol2 ∧ s.history = []

/-- What the place `idx` holds decides whether a frame changes anything. -/
def Inert (d : Daemon) (idx : Nat) (m : Moment) (f : Frame) : Prop :=
  match f with
  | .attach _ sessionId protocol observe => d.InertAttach idx sessionId protocol observe
  | other =>
    match d.clients[idx]? with
    | none => True
    | some c =>
      match c.leaf with
      | none => False
      | some id => (c.observe && isInput other) = true ∨
          (creditClient other c = c ∧ ∃ s, d.session id = some s ∧ s.Deaf m other)

theorem inert_input {d : Daemon} {idx : Nat} {c : Client} {id : SessionId} {m : Moment} {f : Frame}
    (hc : d.clients[idx]? = some c) (hleaf : c.leaf = some id) (hobserve : c.observe = true)
    (hinput : isInput f = true) : Inert d idx m f := by
  cases f with
  | data | resize =>
    unfold Inert
    dsimp only
    rw [hc]
    dsimp only
    rw [hleaf, hobserve]
    exact .inl hinput
  | attach | credit | exit | refused | checkpoint | delta | resyncRequest => cases hinput

theorem setKernel_eq_self {d : Daemon} {k : Kernel} : d.setKernel k = d ↔ k = d.kernel := by
  constructor
  · exact fun h => congrArg Daemon.kernel h
  · rintro rfl
    rfl

theorem modifyClient_eq_self {d : Daemon} {idx : Nat} {c : Client} (hc : d.clients[idx]? = some c)
    (g : Client → Client) : d.modifyClient idx g = d ↔ g c = c := by
  constructor
  · intro h
    have hclients : (d.modifyClient idx g).clients[idx]? = d.clients[idx]? := by rw [h]
    rw [clients_modifyClient, List.getElem?_modify_eq, hc] at hclients
    exact Option.some.inj hclients
  · intro h
    rw [modifyClient, modify_of_get hc, h, set_of_get hc]
    rfl

/-- Only a frame that is answered goes on, and only the session changes. -/
theorem exec_onFrame_eq_ok {m : Moment} {id : SessionId} {s : Session} {f : Frame} {d d' : Daemon}
    (hs : d.session id = some s) (hf : Kernel.isWriterAttach f = false) :
    (onFrame m id f).exec d = (.ok (), d') ↔
      Session.Absorbed ((Session.onFrame m f).exec s).1 ∧
        d' = d.setSession id ((Session.onFrame m f).exec s).2 := by
  have hs' : d.kernel.session id = some s := hs
  rw [onFrame, Op.exec_bind, Op.exec_attempt, exec_onKernel, Kernel.exec_onFrame hs' m hf]
  rcases (Session.onFrame m f).exec s with ⟨(_ | _ | _ | _ | _) | _, t⟩
  case error.dead | ok =>
    constructor
    · intro h
      exact ⟨by simp [Session.Absorbed], (Prod.mk.inj h).2.symm⟩
    · rintro ⟨-, rfl⟩
      rfl
  all_goals
    constructor
    · intro h
      cases h
    · rintro ⟨h | h, -⟩
      · cases h
      · cases h

theorem onFrame_missing {m : Moment} {id : SessionId} {f : Frame} {d d' : Daemon}
    (hs : d.session id = none) : (onFrame m id f).exec d ≠ (.ok (), d') := by
  intro h
  obtain ⟨s, _, hs', -⟩ := onFrame_ok h
  rw [hs] at hs'
  cases hs'

theorem dispatchOwn_idle {m : Moment} {idx : Nat} {id : SessionId} {f : Frame} {d : Daemon}
    {c : Client} (hf : f.isAttach = false) (hc : d.clients[idx]? = some c) :
    (dispatchOwn m idx id f).exec d = (.ok (), d) ↔
      creditClient f c = c ∧ ∃ s, d.session id = some s ∧ s.Deaf m f := by
  rw [exec_dispatchOwn]
  have hwriter : Kernel.isWriterAttach f = false := by
    cases f with
    | attach => cases hf
    | data | credit | resize | exit | refused | checkpoint | delta | resyncRequest => rfl
  cases hs : d.session id with
  | none =>
    constructor
    · exact fun h => absurd h (onFrame_missing hs)
    · rintro ⟨-, s, hs', -⟩
      cases hs'
  | some s =>
    have hs₁ : (d.modifyClient idx (creditClient f)).session id = some s := hs
    rw [exec_onFrame_eq_ok hs₁ hwriter]
    constructor
    · rintro ⟨habsorbed, hsame⟩
      have hsession : d.setSession id ((Session.onFrame m f).exec s).2 = d := by
        have hkernel := congrArg Daemon.kernel hsame
        exact setKernel_eq_self.mpr hkernel.symm
      have hclients := congrArg Daemon.clients hsame
      refine ⟨(modifyClient_eq_self hc _).mp ?_, s, rfl, (Session.onFrame_deaf s m hf).mp
        ⟨habsorbed, ?_⟩⟩
      · rw [modifyClient]
        exact congrArg d.setClients hclients.symm
      · exact (Kernel.setSession_eq_self hs).mp (setKernel_eq_self.mp hsession)
    · rintro ⟨hcredit, _, ⟨⟩, hdeaf⟩
      obtain ⟨habsorbed, hsame⟩ := (Session.onFrame_deaf s m hf).mpr hdeaf
      refine ⟨habsorbed, ?_⟩
      rw [(modifyClient_eq_self hc _).mpr hcredit, hsame]
      exact (setKernel_eq_self.mpr (Kernel.setSession_self hs)).symm

theorem sendTo_not_idle {idx : Nat} {q : Queued} {d d' : Daemon} {c c' : Client}
    (hc : d.clients[idx]? = some c) (h : (sendTo idx q).exec d = (.ok (), d'))
    (hc' : d'.clients[idx]? = some c') : c'.log = c.log ++ [q] := by
  obtain ⟨g, rfl, hg⟩ := sendTo_ok h
  rw [clients_modifyClient, List.getElem?_modify_eq, hc] at hc'
  obtain rfl := Option.some.inj hc'
  exact (hg c).log

theorem exec_sendTo_none {idx : Nat} {d : Daemon} (hc : d.clients[idx]? = none) (q : Queued) :
    (sendTo idx q).exec d = (.ok (), d) := by
  rw [sendTo, onClient, Op.exec_get_bind, hc]
  rfl

theorem refuse_idle {idx : Nat} {d : Daemon} (reason : RefuseReason) :
    (refuse idx reason).exec d = (.ok (), d) ↔ d.clients[idx]? = none := by
  cases hc : d.clients[idx]? with
  | none => exact ⟨fun _ => rfl, fun _ => exec_sendTo_none hc _⟩
  | some c =>
    constructor
    · intro h
      have hlog := sendTo_not_idle hc h hc
      simp at hlog
    · exact fun h => by cases h

/-- Only a count of observers that is full stays as it is. -/
theorem attach_eq_self {s : Session} {m : Moment} {generation : UInt64} {observe : Bool} :
    s.attach m generation observe = s ↔ observe = true ∧ s.observers = u32Max := by
  cases observe with
  | true =>
    rw [Session.attach, if_pos rfl]
    constructor
    · intro h
      have hobservers : min (s.observers + 1) u32Max = s.observers := congrArg Session.observers h
      exact ⟨rfl, by omega⟩
    · rintro ⟨-, hfull⟩
      rw [hfull]
      rw [show min (u32Max + 1) u32Max = s.observers from hfull.symm]
  | false =>
    rw [Session.attach, if_neg Bool.false_ne_true]
    constructor
    · intro h
      split at h
      case isTrue =>
        have hlen := congrArg (fun t => t.outbound.length) h
        simp [Session.enqueueOutbound] at hlen
      case isFalse hfree =>
        have hgeneration := congrArg Session.attached h
        rw [show s.attached = false by simpa using hfree] at hgeneration
        cases hgeneration
    · exact fun h => by cases h.1

theorem exec_acceptAttach_full {m : Moment} {idx : Nat} {id : SessionId} {generation : UInt64}
    {sessionId : Option UInt64} {protocol : UInt8} {d : Daemon} {s : Session}
    (hs : d.session id = some s) (hfull : s.observers = u32Max) :
    (acceptAttach m idx id generation sessionId protocol true).exec d =
      (if protocol = protocol2 then emitCheckpoint idx id else sendHistory idx id).exec
        (d.modifyClient idx fun c => c.attachTo id true protocol (d.taken id)) := by
  have hframe : (onFrame m id (.attach generation sessionId protocol true)).exec d =
      (.ok (), d) := by
    rw [exec_onFrame_eq_ok hs rfl, Session.onFrame_attach, attach_eq_self.mpr ⟨rfl, hfull⟩]
    exact ⟨.inl rfl, (setKernel_eq_self.mpr (Kernel.setSession_self hs)).symm⟩
  rw [acceptAttach, Op.exec_bind_ok hframe, Op.exec_get_bind, Bool.true_or, if_pos rfl,
    Op.exec_modify_bind]
  split
  case isTrue => rfl
  case isFalse => rw [if_pos rfl]

theorem exec_emitCheckpoint {idx : Nat} {id : SessionId} {d : Daemon} {s : Session}
    (hs : d.session id = some s) :
    (emitCheckpoint idx id).exec d =
      match chipFrom d.chip s.history with
      | .error e => (.error (.vt e), d)
      | .ok chip =>
        (sendTo idx ⟨.checkpoint (UInt64.ofNat s.bytesDelivered) (podHash chip.snapshot.1)
          (encodePodGrid chip.snapshot.1), .repaint s.pty.taken.length⟩).exec
            (d.setChip chip.snapshot.2) := by
  rw [emitCheckpoint, Op.exec_get_bind, hs]
  dsimp only
  rw [Op.exec_get_bind]
  cases chipFrom d.chip s.history with
  | error e =>
    have hchip : (setChipOr (.error e)).exec d = (.error (.vt e), d) := rfl
    rw [Op.exec_bind_error hchip]
  | ok chip =>
    have hchip : (setChipOr (.ok chip)).exec d = (.ok (), d.setChip chip) := rfl
    rw [Op.exec_bind_ok hchip, Op.exec_get_bind, Op.exec_modify_bind]
    rfl

/-- Nobody is there to be shown the leaf; the chip has still been fed. -/
theorem emitCheckpoint_idle {idx : Nat} {id : SessionId} {d : Daemon} {s : Session}
    (hs : d.session id = some s) (hc : d.clients[idx]? = none) :
    (emitCheckpoint idx id).exec d = (.ok (), d) ↔
      (chipFrom d.chip s.history).map (fun chip => chip.snapshot.2) = .ok d.chip := by
  rw [exec_emitCheckpoint hs]
  cases chipFrom d.chip s.history with
  | error e =>
    constructor
    · exact fun h => by cases h
    · exact fun h => by cases h
  | ok chip =>
    dsimp only
    rw [exec_sendTo_none (by exact hc)]
    constructor
    · intro h
      exact congrArg Except.ok (congrArg Daemon.chip (Prod.mk.inj h).2)
    · intro h
      rw [show chip.snapshot.2 = d.chip from Except.ok.inj h]
      rfl

theorem acceptAttach_idle {m : Moment} {idx : Nat} {id : SessionId} {generation : UInt64}
    {sessionId : Option UInt64} {protocol : UInt8} {observe : Bool} {d : Daemon} :
    (acceptAttach m idx id generation sessionId protocol observe).exec d = (.ok (), d) ↔
      observe = true ∧ ∃ s, d.session id = some s ∧ s.observers = u32Max ∧
        match d.clients[idx]? with
        | none => protocol = protocol2 →
            (chipFrom d.chip s.history).map (fun chip => chip.snapshot.2) = .ok d.chip
        | some c => c.setRole id true protocol = c ∧ protocol ≠ protocol2 ∧ s.history = [] := by
  constructor
  · intro h
    obtain ⟨s, g, qs, hs, -, hsession, -, -, -⟩ := acceptAttach_ok h
    have hsame : s.attach m generation observe = s := by
      have hid := congrFun hsession id
      rw [update_self, hs] at hid
      exact (Option.some.inj hid).symm
    obtain ⟨rfl, hfull⟩ := attach_eq_self.mp hsame
    refine ⟨rfl, s, hs, hfull, ?_⟩
    rw [exec_acceptAttach_full hs hfull] at h
    have hs₁ : (d.modifyClient idx fun c =>
        c.attachTo id true protocol (d.taken id)).session id = some s := hs
    cases hc : d.clients[idx]? with
    | none =>
      intro hprotocol
      rw [if_pos hprotocol, modifyClient, modify_of_none hc] at h
      exact (emitCheckpoint_idle hs hc).mp h
    | some c =>
      have hc₁ : (d.modifyClient idx fun c =>
          c.attachTo id true protocol (d.taken id)).clients[idx]? =
            some (c.attachTo id true protocol (d.taken id)) := by
        rw [clients_modifyClient, List.getElem?_modify_eq, hc]
        rfl
      have hsilent : ∀ q d₁, d₁.clients = (d.modifyClient idx fun c =>
          c.attachTo id true protocol (d.taken id)).clients → (sendTo idx q).exec d₁ ≠ (.ok (), d) := by
        intro q d₁ hd₁ hrun
        rw [← hd₁] at hc₁
        have hlog := sendTo_not_idle hc₁ hrun hc
        simp [Client.attachTo, Client.setRole] at hlog
      split at h
      case isTrue =>
        rw [exec_emitCheckpoint hs₁] at h
        split at h
        case h_1 => cases h
        case h_2 => exact absurd h (hsilent _ _ rfl)
      case isFalse hprotocol =>
        rw [sendHistory, Op.exec_get_bind, hs₁] at h
        dsimp only at h
        split at h
        case isTrue hempty =>
          have hrole := (modifyClient_eq_self hc _).mp (Prod.mk.inj h).2
          refine ⟨Client.attachTo_eq_self.mp hrole, hprotocol, ?_⟩
          exact List.isEmpty_iff.mp hempty
        case isFalse => exact absurd h (hsilent _ _ rfl)
  · rintro ⟨rfl, s, hs, hfull, hplace⟩
    rw [exec_acceptAttach_full hs hfull]
    cases hc : d.clients[idx]? with
    | none =>
      rw [hc] at hplace
      dsimp only at hplace
      rw [modifyClient, modify_of_none hc]
      change (if protocol = protocol2 then emitCheckpoint idx id else sendHistory idx id).exec d = _
      split
      case isTrue hprotocol => exact (emitCheckpoint_idle hs hc).mpr (hplace hprotocol)
      case isFalse =>
        rw [sendHistory, Op.exec_get_bind, hs]
        dsimp only
        split
        case isTrue => rfl
        case isFalse => exact exec_sendTo_none hc _
    | some c =>
      rw [hc] at hplace
      obtain ⟨hrole, hprotocol, hempty⟩ := hplace
      rw [(modifyClient_eq_self hc _).mpr (Client.attachTo_eq_self.mpr hrole), if_neg hprotocol,
        sendHistory, Op.exec_get_bind, hs]
      dsimp only
      rw [hempty]
      rfl

/-- A frame changes nothing exactly where `Inert` says so. -/
theorem idle_iff_inert (d : Daemon) (idx : Nat) (m : Moment) (f : Frame) :
    Idle d idx m f ↔ Inert d idx m f := by
  by_cases hf : f.isAttach = true
  · cases f with
    | attach generation sessionId protocol observe =>
      change (dispatchAttach m idx generation sessionId protocol observe).exec d = _ ↔
        d.InertAttach idx sessionId protocol observe
      unfold InertAttach
      rcases exec_dispatchAttach m idx generation sessionId protocol observe d with
        ⟨reason, hrefusal, hrun⟩ | ⟨id, hrefusal, hid, hrun⟩
      · rw [hrun, hrefusal]
        exact refuse_idle reason
      · rw [hrun, hrefusal, hid, acceptAttach_idle]
        dsimp only
        constructor
        · rintro ⟨hobserve, s, hs⟩
          exact ⟨hobserve, id, s, rfl, hs⟩
        · rintro ⟨hobserve, _, s, ⟨⟩, hs⟩
          exact ⟨hobserve, s, hs⟩
    | data | credit | resize | exit | refused | checkpoint | delta | resyncRequest => cases hf
  · rw [Bool.not_eq_true] at hf
    have hinert : Inert d idx m f ↔
        match d.clients[idx]? with
        | none => True
        | some c =>
          match c.leaf with
          | none => False
          | some id => (c.observe && isInput f) = true ∨
              (creditClient f c = c ∧ ∃ s, d.session id = some s ∧ s.Deaf m f) := by
      cases f with
      | attach => cases hf
      | data | credit | resize | exit | refused | checkpoint | delta | resyncRequest => exact Iff.rfl
    rw [hinert, Idle, exec_dispatchFrame hf]
    cases hc : d.clients[idx]? with
    | none =>
      have hleaf : d.leafOf idx = none := by rw [leafOf, hc]; rfl
      rw [hleaf]
      refine iff_of_true ?_ trivial
      exact congrArg (Prod.mk _) (dropClient_of_none hc)
    | some c =>
      have hleaf : d.leafOf idx = c.leaf := by rw [leafOf, hc]; rfl
      have hobserves : d.observes idx = c.observe := by rw [observes, hc]; rfl
      rw [hleaf, hobserves]
      dsimp only
      cases c.leaf with
      | none =>
        refine iff_of_false (fun h => ?_) id
        have hlen := congrArg (fun d => d.clients.length) (Prod.mk.inj h).2
        rw [clients_dropClient, List.length_eraseIdx_of_lt (List.getElem?_eq_some_iff.mp hc).1]
          at hlen
        have hpos := (List.getElem?_eq_some_iff.mp hc).1
        omega
      | some id =>
        dsimp only
        split
        case isTrue hinput => exact iff_of_true rfl (.inl hinput)
        case isFalse hinput =>
          rw [dispatchOwn_idle hf hc]
          exact ⟨.inr, fun h => h.resolve_left hinput⟩

-- ---------------------------------------------------------------------------
-- A batch
-- ---------------------------------------------------------------------------

/-- While the connection at `idx` is there, each frame acts for it; once it has
been dropped, none of the frames left changes anything. -/
def Owned (idx : Nat) : Daemon → List (Moment × Frame) → Prop
  | _, [] => True
  | d, (m, f) :: rest =>
    Own d idx f ((dispatchFrame m idx f).exec d).2 ∧
      match (dispatchFrame m idx f).exec d with
      | (.error _, _) => True
      | (.ok (), d') =>
        if d'.clients.length = d.clients.length then Owned idx d' rest
        else ∀ b ∈ rest, Idle d' idx b.1 b.2

/-- An ATTACH the daemon answers with REFUSED. -/
def Refused (d : Daemon) (idx : Nat) (f : Frame) : Prop :=
  match f with
  | .attach _ sessionId protocol observe => (d.refusal idx sessionId protocol observe).isSome
  | _ => False

/-- Behind the frame for which an unattached connection is dropped there are
only frames that do nothing to the connection that takes its place. -/
def Clean (d : Daemon) (idx : Nat) (batch : List (Moment × Frame)) : Prop :=
  d.leafOf idx = none → ∀ pre b rest, batch = pre ++ b :: rest →
    (∀ r ∈ pre, Refused d idx r.2) → b.2.isAttach = false →
      ∀ r ∈ rest, Inert (d.setClients (d.clients.eraseIdx idx)) idx r.1 r.2

theorem dispatchFrames_idle {d : Daemon} {idx : Nat} {batch : List (Moment × Frame)}
    (h : ∀ b ∈ batch, Idle d idx b.1 b.2) : (dispatchFrames idx batch).exec d = (.ok (), d) := by
  induction batch with
  | nil => rfl
  | cons b rest ih =>
    obtain ⟨hb, hrest⟩ := List.forall_mem_cons.mp h
    rw [dispatchFrames, Op.forM_cons, Op.exec_bind_ok hb]
    exact ih hrest

theorem leafOf_modifyClient {d : Daemon} {idx : Nat} {c : Client} (hc : d.clients[idx]? = some c)
    (g : Client → Client) : (d.modifyClient idx g).leafOf idx = (g c).leaf := by
  rw [leafOf, clients_modifyClient, List.getElem?_modify_eq, hc]
  rfl

/-- Nothing drops an attached connection in the middle of a batch. -/
theorem dispatchFrame_stays {m : Moment} {idx : Nat} {f : Frame} {d d' : Daemon}
    (h : (dispatchFrame m idx f).exec d = (.ok (), d')) (hleaf : (d.leafOf idx).isSome) :
    d'.clients.length = d.clients.length ∧ (d'.leafOf idx).isSome := by
  obtain ⟨id, hid⟩ := Option.isSome_iff_exists.mp hleaf
  obtain ⟨c, hc, hcleaf⟩ := leafOf_eq_some.mp hid
  have hlt := (List.getElem?_eq_some_iff.mp hc).1
  have heffect := (dispatchFrame_ok h).1
  generalize d'.session = S at heffect
  generalize hC : d'.clients = C at heffect
  rw [leafOf, hC]
  cases heffect with
  | idle => exact ⟨rfl, hleaf⟩
  | drop _ hc' hnone =>
    obtain rfl := Option.some.inj (hc.symm.trans hc')
    rw [hcleaf] at hnone
    cases hnone
  | refuse hsent =>
    rw [List.length_modify, List.getElem?_modify_eq, hc]
    refine ⟨rfl, ?_⟩
    change (_ : Client).leaf.isSome = true
    rw [(hsent c).leaf, hcleaf]
    rfl
  | attach _ _ _ _ _ hsent =>
    rw [List.length_modify, List.getElem?_modify_eq, hc]
    refine ⟨rfl, ?_⟩
    change (_ : Client).leaf.isSome = true
    rw [(hsent c).leaf]
    rfl
  | own _ _ hc' hleaf' =>
    rw [List.length_set, List.getElem?_set_self hlt]
    refine ⟨rfl, ?_⟩
    change (_ : Client).leaf.isSome = true
    rw [(creditClient_role _ _).1, hleaf']
    rfl

theorem owned_attached {idx : Nat} {d : Daemon} (hleaf : (d.leafOf idx).isSome)
    (batch : List (Moment × Frame)) : Owned idx d batch := by
  induction batch generalizing d with
  | nil => trivial
  | cons b rest ih =>
    obtain ⟨m, f⟩ := b
    refine ⟨dispatchFrame_own m idx f d, ?_⟩
    split
    case h_1 => trivial
    case h_2 d' hrun =>
      obtain ⟨hlen, hleaf'⟩ := dispatchFrame_stays hrun hleaf
      rw [if_pos hlen]
      exact ih hleaf'

theorem leafOf_of_get {d : Daemon} {idx : Nat} {c : Client} (hc : d.clients[idx]? = some c) :
    d.leafOf idx = c.leaf := by
  rw [leafOf, hc]
  rfl

/-- A frame of an unattached connection is an ATTACH that is refused, one that is
let through, or the end of the connection. -/
theorem dispatchFrame_unattached {m : Moment} {idx : Nat} {f : Frame} {d : Daemon} {c : Client}
    (hc : d.clients[idx]? = some c) (hleaf : c.leaf = none) :
    (Refused d idx f ∧ f.isAttach = true ∧ ∃ c', c'.leaf = none ∧
        (dispatchFrame m idx f).exec d = (.ok (), d.modifyClient idx fun _ => c')) ∨
      (¬ Refused d idx f ∧ f.isAttach = true ∧
        ∀ d', (dispatchFrame m idx f).exec d = (.ok (), d') →
          d'.clients.length = d.clients.length ∧ (d'.leafOf idx).isSome) ∨
      (f.isAttach = false ∧
        (dispatchFrame m idx f).exec d = (.ok (), d.setClients (d.clients.eraseIdx idx))) := by
  by_cases hf : f.isAttach = true
  · cases f with
    | attach generation sessionId protocol observe =>
      rcases exec_dispatchAttach m idx generation sessionId protocol observe d with
        ⟨reason, hrefusal, hrun⟩ | ⟨id, hrefusal, -, hrun⟩
      · refine .inl ⟨by simp [Refused, hrefusal], rfl, c.push ⟨.refused reason, .control⟩
          (Frame.refused reason).wire, hleaf, hrun.trans ?_⟩
        rw [refuse_exec hc reason, modifyClient, modifyClient, modify_of_get hc, modify_of_get hc]
      · refine .inr (.inl ⟨by simp [Refused, hrefusal], rfl, fun d' h => ?_⟩)
        have haccept := hrun.symm.trans h
        obtain ⟨s, g, qs, -, -, -, hclients, hsent, -⟩ := acceptAttach_ok haccept
        rw [leafOf, hclients, List.length_modify, List.getElem?_modify_eq, hc]
        refine ⟨rfl, ?_⟩
        change (g c).leaf.isSome = true
        rw [(hsent c).leaf]
        rfl
    | data | credit | resize | exit | refused | checkpoint | delta | resyncRequest => cases hf
  · rw [Bool.not_eq_true] at hf
    refine .inr (.inr ⟨hf, ?_⟩)
    rw [exec_dispatchFrame hf, leafOf_of_get hc, hleaf]
    change ((.ok (), d.dropClient idx) : Except Error Unit × Daemon) = _
    simp only [dropClient, hc, hleaf]
    rfl

theorem refused_modifyClient {d : Daemon} {idx : Nat} {c c' : Client}
    (hc : d.clients[idx]? = some c) (hleaf : c'.leaf = c.leaf) (f : Frame) :
    Refused (d.modifyClient idx fun _ => c') idx f ↔ Refused d idx f := by
  have hleafOf : (d.modifyClient idx fun _ => c').leafOf idx = d.leafOf idx := by
    rw [leafOf_modifyClient hc, leafOf, hc]
    exact hleaf
  cases f with
  | attach generation sessionId protocol observe =>
    change ((d.modifyClient idx fun _ => c').refusal idx sessionId protocol observe).isSome ↔
      (d.refusal idx sessionId protocol observe).isSome
    unfold refusal
    rw [hleafOf]
    exact Iff.rfl
  | data | credit | resize | exit | refused | checkpoint | delta | resyncRequest => exact Iff.rfl

theorem eraseIdx_modifyClient {d : Daemon} {idx : Nat} (g : Client → Client) :
    (d.modifyClient idx g).setClients ((d.modifyClient idx g).clients.eraseIdx idx) =
      d.setClients (d.clients.eraseIdx idx) := by
  change d.setClients ((d.clients.modify idx g).eraseIdx idx) = _
  cases hc : d.clients[idx]? with
  | none => rw [modify_of_none hc]
  | some c =>
    obtain ⟨l₁, l₂, hsplit, rfl⟩ := exists_split hc
    rw [modify_of_get hc, hsplit, set_split, eraseIdx_split, eraseIdx_split]

theorem clean_refused {d : Daemon} {idx : Nat} {c c' : Client} (hc : d.clients[idx]? = some c)
    (hleaf : c.leaf = none) (hleaf' : c'.leaf = none) {b : Moment × Frame}
    (hb : Refused d idx b.2) (hattach : b.2.isAttach = true) (rest : List (Moment × Frame)) :
    Clean (d.modifyClient idx fun _ => c') idx rest ↔ Clean d idx (b :: rest) := by
  have hrefused := refused_modifyClient (d := d) hc (hleaf'.trans hleaf.symm)
  have hleafOf : d.leafOf idx = none := by
    rw [leafOf, hc]
    exact hleaf
  have hleafOf' : (d.modifyClient idx fun _ => c').leafOf idx = none :=
    (leafOf_modifyClient hc _).trans hleaf'
  unfold Clean
  rw [eraseIdx_modifyClient]
  constructor
  · rintro h - pre a after hsplit hpre ha
    cases pre with
    | nil =>
      obtain ⟨rfl, -⟩ := List.cons.inj hsplit
      rw [hattach] at ha
      cases ha
    | cons b' pre =>
      obtain ⟨-, hrest⟩ := List.cons.inj hsplit
      obtain ⟨-, hpre⟩ := List.forall_mem_cons.mp hpre
      exact h hleafOf' pre a after hrest (fun r hr => (hrefused r.2).mpr (hpre r hr)) ha
  · rintro h - pre a after rfl hpre ha
    refine h hleafOf (b :: pre) a after rfl ?_ ha
    exact List.forall_mem_cons.mpr ⟨hb, fun r hr => (hrefused r.2).mp (hpre r hr)⟩

theorem clean_dropped {d : Daemon} {idx : Nat} {b : Moment × Frame}
    (hleaf : d.leafOf idx = none) (hb : b.2.isAttach = false) (rest : List (Moment × Frame)) :
    Clean d idx (b :: rest) ↔
      ∀ r ∈ rest, Inert (d.setClients (d.clients.eraseIdx idx)) idx r.1 r.2 := by
  constructor
  · exact fun h => h hleaf [] b rest rfl (fun r hr => absurd hr List.not_mem_nil) hb
  · rintro h - pre a after hsplit hpre -
    cases pre with
    | nil =>
      obtain ⟨-, rfl⟩ := List.cons.inj hsplit
      exact h
    | cons b' pre =>
      obtain ⟨rfl, -⟩ := List.cons.inj hsplit
      have hrefused := hpre b List.mem_cons_self
      revert hrefused hb
      cases b.2 with
      | attach => exact fun hb => by cases hb
      | data | credit | resize | exit | refused | checkpoint | delta | resyncRequest =>
        exact fun _ h => h.elim

theorem clean_let {d : Daemon} {idx : Nat} {b : Moment × Frame} (hlet : ¬ Refused d idx b.2)
    (hattach : b.2.isAttach = true) (rest : List (Moment × Frame)) : Clean d idx (b :: rest) := by
  rintro - pre a after hsplit hpre ha
  cases pre with
  | nil =>
    obtain ⟨rfl, -⟩ := List.cons.inj hsplit
    rw [hattach] at ha
    cases ha
  | cons b' pre =>
    obtain ⟨rfl, -⟩ := List.cons.inj hsplit
    exact absurd (hpre _ List.mem_cons_self) hlet

theorem owned_cons {d d' : Daemon} {idx : Nat} {m : Moment} {f : Frame}
    (hrun : (dispatchFrame m idx f).exec d = (.ok (), d')) (rest : List (Moment × Frame)) :
    Owned idx d ((m, f) :: rest) ↔
      if d'.clients.length = d.clients.length then Owned idx d' rest
      else ∀ b ∈ rest, Idle d' idx b.1 b.2 := by
  rw [Owned, hrun]
  have hown := dispatchFrame_own m idx f d
  rw [hrun] at hown
  exact and_iff_right hown

theorem owned_refused {d : Daemon} {idx : Nat} {m : Moment} {f : Frame} {c' : Client}
    (hrun : (dispatchFrame m idx f).exec d = (.ok (), d.modifyClient idx fun _ => c'))
    (rest : List (Moment × Frame)) :
    Owned idx d ((m, f) :: rest) ↔ Owned idx (d.modifyClient idx fun _ => c') rest := by
  rw [owned_cons hrun, if_pos (by rw [clients_modifyClient, List.length_modify])]

theorem owned_dropped {d : Daemon} {idx : Nat} {m : Moment} {f : Frame} {c : Client}
    (hc : d.clients[idx]? = some c)
    (hrun : (dispatchFrame m idx f).exec d = (.ok (), d.setClients (d.clients.eraseIdx idx)))
    (rest : List (Moment × Frame)) :
    Owned idx d ((m, f) :: rest) ↔
      ∀ b ∈ rest, Idle (d.setClients (d.clients.eraseIdx idx)) idx b.1 b.2 := by
  have hlt := (List.getElem?_eq_some_iff.mp hc).1
  rw [owned_cons hrun, if_neg]
  rw [clients_setClients, List.length_eraseIdx_of_lt hlt]
  omega

theorem getElem?_modifyClient {d : Daemon} {idx : Nat} {c : Client} (hc : d.clients[idx]? = some c)
    (g : Client → Client) : (d.modifyClient idx g).clients[idx]? = some (g c) := by
  rw [clients_modifyClient, List.getElem?_modify_eq, hc]
  rfl

theorem owned_iff_clean {d : Daemon} {idx : Nat} {c : Client} (hc : d.clients[idx]? = some c)
    (batch : List (Moment × Frame)) : Owned idx d batch ↔ Clean d idx batch := by
  induction batch generalizing d c with
  | nil =>
    refine iff_of_true trivial fun _ pre b rest h => ?_
    simp at h
  | cons b rest ih =>
    obtain ⟨m, f⟩ := b
    have hleafOf := leafOf_of_get hc
    cases hleaf : c.leaf with
    | some id =>
      rw [hleaf] at hleafOf
      refine iff_of_true (owned_attached (by rw [hleafOf]; rfl) _) fun h => ?_
      rw [hleafOf] at h
      cases h
    | none =>
      rcases dispatchFrame_unattached (m := m) (f := f) hc hleaf with
        ⟨hrefused, hattach, c', hleaf', hrun⟩ | ⟨hlet, hattach, hstays⟩ | ⟨hattach, hrun⟩
      · rw [owned_refused hrun, ih (getElem?_modifyClient hc _)]
        exact clean_refused hc hleaf hleaf' hrefused hattach rest
      · refine iff_of_true ⟨dispatchFrame_own m idx f d, ?_⟩ (clean_let hlet hattach rest)
        split
        case h_1 => trivial
        case h_2 d' hrun =>
          obtain ⟨hlen, hleaf'⟩ := hstays d' hrun
          rw [if_pos hlen]
          exact owned_attached hleaf' rest
      · rw [owned_dropped hc hrun, clean_dropped (hleafOf.trans hleaf) hattach]
        simp only [idle_iff_inert]

/-- The batch of a connection that is attached neither before nor by it reaches
no leaf and no other connection. -/
theorem owned_unattached {d : Daemon} {idx : Nat} {c : Client} (hc : d.clients[idx]? = some c)
    (hleaf : c.leaf = none) {batch : List (Moment × Frame)} (howned : Owned idx d batch)
    (hrefused : ∀ b ∈ batch, b.2.isAttach = true → Refused d idx b.2) :
    ∃ d', (dispatchFrames idx batch).exec d = (.ok (), d') ∧ d'.kernel = d.kernel ∧
      (d'.clients = d.clients.eraseIdx idx ∨ ∃ g, d'.clients = d.clients.modify idx g) := by
  induction batch generalizing d c with
  | nil =>
    refine ⟨d, rfl, rfl, .inr ⟨id, ?_⟩⟩
    rw [List.modify_id]
  | cons b rest ih =>
    obtain ⟨m, f⟩ := b
    obtain ⟨hfirst, hrest⟩ := List.forall_mem_cons.mp hrefused
    rcases dispatchFrame_unattached (m := m) (f := f) hc hleaf with
      ⟨-, -, c', hleaf', hrun⟩ | ⟨hlet, hattach, -⟩ | ⟨-, hrun⟩
    · have hkeeps := refused_modifyClient (d := d) hc (hleaf'.trans hleaf.symm)
      obtain ⟨d', hexec, hkernel, hclients⟩ := ih (getElem?_modifyClient hc _) hleaf'
        ((owned_refused hrun rest).mp howned)
        fun b hb hattach => (hkeeps b.2).mpr (hrest b hb hattach)
      refine ⟨d', ?_, hkernel, ?_⟩
      · rw [dispatchFrames, Op.forM_cons, Op.exec_bind_ok hrun]
        exact hexec
      · rcases hclients with herase | ⟨g, hg⟩
        · refine .inl (herase.trans ?_)
          exact congrArg Daemon.clients (eraseIdx_modifyClient (d := d) fun _ => c')
        · refine .inr ⟨g ∘ fun _ => c', ?_⟩
          rw [hg, clients_modifyClient, List.modify_modify_eq]
    · exact absurd (hfirst hattach) hlet
    · refine ⟨d.setClients (d.clients.eraseIdx idx), ?_, rfl, .inl rfl⟩
      rw [dispatchFrames, Op.forM_cons, Op.exec_bind_ok hrun]
      exact dispatchFrames_idle ((owned_dropped hc hrun rest).mp howned)

/-- Every frame of a batch acts for the connection that sent it, or does nothing,
exactly where no frame that does something follows the one the connection is
dropped for. A connection that was never attached then reaches nobody. -/
theorem batch_owned {d : Daemon} {idx : Nat} {c : Client} (hc : d.clients[idx]? = some c)
    (batch : List (Moment × Frame)) :
    (Owned idx d batch ↔ Clean d idx batch) ∧
      (Clean d idx batch → c.leaf = none →
        (∀ b ∈ batch, b.2.isAttach = true → Refused d idx b.2) →
          ∃ d', (dispatchFrames idx batch).exec d = (.ok (), d') ∧ d'.kernel = d.kernel ∧
            (d'.clients = d.clients.eraseIdx idx ∨
              ∃ g, d'.clients = d.clients.modify idx g)) :=
  ⟨owned_iff_clean hc batch, fun hclean hleaf hrefused =>
    owned_unattached hc hleaf ((owned_iff_clean hc batch).mpr hclean) hrefused⟩

/-- A connection that is refused a leaf that is not there, and dropped for its CREDIT. Its DATA then
stands for an observer, which may not write. -/
theorem batch_owned_observer :
    let batch : List (Moment × Frame) := [(⟨0, 3600⟩, .attach 3 (some 9) protocolVersion false),
      (⟨0, 3600⟩, .credit 5), (⟨0, 3600⟩, .data [7])]
    ∃ d, after [⟨[97, 98, 99], none, none, none⟩] ⟨4, 2, 0, 0⟩ false
        [{ Poll.quiet with accept := .ok (some (.of [] [] [])) },
          { Poll.quiet with
            accept := .ok (some (.of [.attach 1 none protocolVersion true, .credit 5] [] [])) },
          { Poll.quiet with ready := fun idx => idx = 1, readable := fun _ => true }] = .ok d ∧
      Owned 0 d batch ∧ ∃ d', (dispatchFrames 0 batch).exec d = (.ok (), d') ∧
        d'.kernel = d.kernel ∧ d'.clients = d.clients.eraseIdx 0 ∧
        d'.clients.map Client.leaf = [some ⟨1⟩] := by
  intro batch
  refine exists_after (p := fun d => (d.clients[0]?.any fun c => c.leaf = none) &&
    (d.clients[1]?.any fun c => c.observe && c.leaf = some ⟨1⟩) && d.clients.length = 2 &&
    (d.refusal 0 (some 9) protocolVersion false).isSome &&
    ((dispatchFrames 0 batch).exec d).2.clients.map Client.leaf = [some ⟨1⟩]) (by decide +kernel)
    fun d hfound => ?_
  simp only [Bool.and_eq_true, Option.any_eq_true, decide_eq_true_eq] at hfound
  obtain ⟨⟨⟨⟨⟨c, hc, hleaf⟩, o, ho, hobserve, hoLeaf⟩, hlength⟩, hrefusal⟩, hleft⟩ := hfound
  have hclean : Clean d 0 batch := by
    rintro - pre b rest hsplit hpre hb r hr
    rcases pre with _ | ⟨x, _ | ⟨y, pre⟩⟩
    · obtain ⟨rfl, -⟩ := List.cons.inj hsplit
      cases hb
    · obtain ⟨-, hsplit⟩ := List.cons.inj hsplit
      obtain ⟨-, rfl⟩ := List.cons.inj hsplit
      obtain rfl := List.mem_singleton.mp hr
      have hnext : (d.setClients (d.clients.eraseIdx 0)).clients[0]? = some o := by
        rw [clients_setClients, List.getElem?_eraseIdx_of_ge (Nat.le_refl 0)]
        exact ho
      exact inert_input hnext hoLeaf hobserve rfl
    · obtain ⟨-, hsplit⟩ := List.cons.inj hsplit
      obtain ⟨rfl, -⟩ := List.cons.inj hsplit
      exact (hpre (⟨0, 3600⟩, .credit 5) (List.mem_cons_of_mem _ List.mem_cons_self)).elim
  have hrefused : ∀ b ∈ batch, b.2.isAttach = true → Refused d 0 b.2 := by
    simpa [batch, Frame.isAttach, Refused] using hrefusal
  obtain ⟨howned, hrun⟩ := batch_owned hc batch
  obtain ⟨d', hexec, hkernel, hclients⟩ := hrun hclean hleaf hrefused
  rw [hexec] at hleft
  refine ⟨howned.mpr hclean, d', hexec, hkernel, ?_, hleft⟩
  refine hclients.resolve_right ?_
  rintro ⟨g, hg⟩
  have hlengths := congrArg List.length hleft
  rw [hg, List.length_map, List.length_modify, hlength] at hlengths
  cases hlengths

/-- An unattached connection is dropped for its CREDIT, and its DATA is written
for the writer that takes its place. -/
theorem batch_reaches_neighbour :
    ∃ d, after [] ⟨1, 1, 0, 0⟩ false
        [{ Poll.quiet with accept := .ok (some (.of [.credit 5, .data [7]] [] [])) },
          { Poll.quiet with
            accept := .ok (some (.of [.attach 1 none protocolVersion false] [] [])) },
          { Poll.quiet with ready := fun idx => idx = 1 }] = .ok d ∧
      d.leafOf 0 = none ∧ ∃ frames d₁ s t, (fetchFrames 0).exec d = (.ok frames, d₁) ∧
        frames = [.credit 5, .data [7]] ∧ d₁.session ⟨1⟩ = some s ∧ s.pty.input = [] ∧
        ((dispatchFrames 0 (frames.map fun f => (⟨0, 3600⟩, f))).exec d₁).2.session ⟨1⟩ = some t ∧
        t.pty.input = [7] := by
  let fetched (d : Daemon) : List Frame := (((fetchFrames 0).exec d).1.toOption.getD [])
  let input (d : Daemon) : Option (List UInt8) := (d.session ⟨1⟩).map fun s => s.pty.input
  let before (d : Daemon) : Daemon := ((fetchFrames 0).exec d).2
  let behind (d : Daemon) : Daemon :=
    ((dispatchFrames 0 ([Frame.credit 5, .data [7]].map fun f => (⟨0, 3600⟩, f))).exec (before d)).2
  refine exists_after (p := fun d => d.leafOf 0 = none ∧
    ((fetchFrames 0).exec d).1.toOption = some [.credit 5, .data [7]] ∧
    input (before d) = some [] ∧ input (behind d) = some [7]) (by decide +kernel) fun d h => ?_
  obtain ⟨hleaf, hfetch, hbefore, hbehind⟩ := of_decide_eq_true h
  obtain ⟨s, hs, hinput⟩ := Option.map_eq_some_iff.mp hbefore
  obtain ⟨t, ht, hinput'⟩ := Option.map_eq_some_iff.mp hbehind
  refine ⟨hleaf, _, before d, s, t, ?_, rfl, hs, hinput, ht, hinput'⟩
  rcases hrun : (fetchFrames 0).exec d with ⟨e | frames, d₁⟩
  · rw [hrun] at hfetch
    cases hfetch
  · rw [hrun] at hfetch
    obtain rfl : frames = _ := Option.some.inj hfetch
    rw [show before d = d₁ from congrArg Prod.snd hrun]

end Rill.Daemon
