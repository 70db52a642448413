import Rill.Daemon.Run
import Rill.Kernel.Steady
import Rill.Lib.Slots

/-!
# What one act can do

`Effect` lists, for each act, the sessions and the clients an act that succeeds
leaves behind. The invariants of the daemon are read off it.
-/

namespace Rill.Daemon

open Lib Attach Kernel Function

abbrev Sessions := SessionId → Option Session

-- ---------------------------------------------------------------------------
-- Sessions and clients after each setter
-- ---------------------------------------------------------------------------

@[simp] theorem session_setClients (d : Daemon) (clients : List Client) :
    (d.setClients clients).session = d.session := rfl

@[simp] theorem session_setChip (d : Daemon) (chip : Vt.VtEngine) :
    (d.setChip chip).session = d.session := rfl

@[simp] theorem session_modifyClient (d : Daemon) (idx : Nat) (f : Client → Client) :
    (d.modifyClient idx f).session = d.session := rfl

@[simp] theorem session_setKernel (d : Daemon) (k : Kernel) :
    (d.setKernel k).session = k.session := rfl

theorem session_setSession {d : Daemon} {id : SessionId} {s : Session} (h : d.session id = some s)
    (t : Session) : (d.setSession id t).session = update d.session id (some t) :=
  Kernel.session_setSession h t

@[simp] theorem clients_setClients (d : Daemon) (clients : List Client) :
    (d.setClients clients).clients = clients := rfl

@[simp] theorem clients_setChip (d : Daemon) (chip : Vt.VtEngine) :
    (d.setChip chip).clients = d.clients := rfl

@[simp] theorem clients_setKernel (d : Daemon) (k : Kernel) :
    (d.setKernel k).clients = d.clients := rfl

@[simp] theorem clients_setSession (d : Daemon) (id : SessionId) (s : Session) :
    (d.setSession id s).clients = d.clients := rfl

@[simp] theorem clients_modifyClient (d : Daemon) (idx : Nat) (f : Client → Client) :
    (d.modifyClient idx f).clients = d.clients.modify idx f := rfl

def Client.leave (c : Client) (id : SessionId) (s : Session) : Session :=
  if c.leaf = some id then releaseRole c.observe s else s

theorem Client.leave_of_none {c : Client} (h : c.leaf = none) (id : SessionId) (s : Session) :
    c.leave id s = s := by
  rw [leave, h, if_neg (by simp)]

theorem dropClient_of_none {d : Daemon} {idx : Nat} (h : d.clients[idx]? = none) :
    d.dropClient idx = d := by
  simp only [dropClient, h]

theorem clients_dropClient (d : Daemon) (idx : Nat) :
    (d.dropClient idx).clients = d.clients.eraseIdx idx := by
  unfold dropClient
  split
  case h_1 h => exact (List.eraseIdx_of_length_le (List.getElem?_eq_none_iff.mp h)).symm
  case h_2 => rfl

theorem session_dropClient {d : Daemon} {idx : Nat} {c : Client} (h : d.clients[idx]? = some c) :
    (d.dropClient idx).session = fun id => (d.session id).map (c.leave id) := by
  funext j
  simp only [dropClient, h, session_setClients, session_setKernel]
  cases hleaf : c.leaf with
  | none =>
    have hid : c.leave j = id := funext fun s => Client.leave_of_none hleaf j s
    rw [hid, Option.map_id]
    rfl
  | some id =>
    dsimp only
    by_cases hj : id = j
    · subst hj
      cases hs : d.session id with
      | none => exact hs
      | some s =>
        dsimp only
        rw [Kernel.session_setSession hs, update_self]
        simp [Client.leave, hleaf]
    · have hleave : ∀ s, c.leave j s = s := fun s => by
        rw [Client.leave, hleaf, if_neg (by simpa using hj)]
      have hmap : (d.session j).map (c.leave j) = d.session j := by
        cases d.session j with
        | none => rfl
        | some s => rw [Option.map_some, hleave]
      rw [hmap]
      cases hs : d.session id with
      | none => rfl
      | some s =>
        dsimp only
        rw [Kernel.session_setSession hs, update_of_ne (fun h => hj h.symm)]
        rfl

-- ---------------------------------------------------------------------------
-- Effects
-- ---------------------------------------------------------------------------

def flushed (d : Daemon) : Sessions :=
  (d.kernel.takeOutbound (d.clients.filterMap Client.leaf)).session

def checkpointFrame (s : Session) (grid : Vt.PodGrid) : Frame :=
  .checkpoint (UInt64.ofNat s.bytesDelivered) (podHash grid) (encodePodGrid grid)

def isCheckpoint : Frame → Bool
  | .checkpoint .. => true
  | _ => false

/-- What a client is shown of a leaf it attaches to; a protocol-1 writer is shown
nothing yet. -/
def Shown (s : Session) (observe : Bool) (protocol : UInt8) (qs : List Queued) : Prop :=
  if protocol = protocol2 then
    ∃ grid, qs = [⟨checkpointFrame s grid, .repaint s.pty.taken.length⟩]
  else if observe = true ∧ s.history ≠ [] then
    qs = [⟨.data s.history, .repaint s.pty.taken.length⟩]
  else qs = []

theorem Shown.repaint {s : Session} {observe : Bool} {protocol : UInt8} {qs : List Queued}
    (h : Shown s observe protocol qs) :
    ∀ q ∈ qs, q.frame.isExit = false ∧ q.origin = .repaint s.pty.taken.length := by
  intro q hq
  unfold Shown at h
  split at h
  case isTrue =>
    obtain ⟨grid, rfl⟩ := h
    obtain rfl := List.mem_singleton.mp hq
    exact ⟨rfl, rfl⟩
  case isFalse =>
    split at h
    case isTrue =>
      obtain rfl := h
      obtain rfl := List.mem_singleton.mp hq
      exact ⟨rfl, rfl⟩
    case isFalse =>
      obtain rfl := h
      cases hq

theorem Shown.writer {s : Session} {protocol : UInt8} {qs : List Queued}
    (h : Shown s false protocol qs) (hprotocol : protocol ≠ protocol2) : qs = [] := by
  rwa [Shown, if_neg hprotocol, if_neg fun h => Bool.false_ne_true h.1] at h

/-- What a frame does to its client before the kernel sees it. -/
def creditClient (f : Frame) (c : Client) : Client :=
  match f with
  | .credit n => c.addCredit n
  | _ => c

theorem creditClient_role (f : Frame) (c : Client) :
    (creditClient f c).leaf = c.leaf ∧ (creditClient f c).observe = c.observe ∧
      (creditClient f c).protocol = c.protocol ∧ (creditClient f c).log = c.log ∧
      (creditClient f c).attachedAt = c.attachedAt ∧
      (creditClient f c).attachedFrom = c.attachedFrom := by
  unfold creditClient
  split
  case h_1 => exact ⟨rfl, rfl, rfl, rfl, rfl, rfl⟩
  case h_2 => exact ⟨rfl, rfl, rfl, rfl, rfl, rfl⟩

/-- The act may find nothing to do. -/
def Act.mayIdle (d : Daemon) : Act → Prop
  | .flush => False
  | .resync id => d.session id = none
  | _ => True

/-- What an act that succeeds leaves of the sessions and the clients. -/
inductive Effect (d : Daemon) : Act → Sessions → List Client → Prop
  | idle {a : Act} (ha : a.mayIdle d) : Effect d a d.session d.clients
  | accept (stream : Stream) : Effect d (.accept stream) d.session (d.clients ++ [.new stream])
  | spawn (turns : List Turn) {id : SessionId} (hid : d.session id = none) :
    Effect d (.spawn turns)
      (update d.session id (some (.spawn (.spawn d.size turns) false d.size))) d.clients
  | fetch {idx : Nat} {c c' : Client} (hc : d.clients[idx]? = some c) (hsent : c.Sent c' []) :
    Effect d (.fetch idx) d.session (d.clients.set idx c')
  | hangup {idx : Nat} {c : Client} (hc : d.clients[idx]? = some c) :
    Effect d (.fetch idx) (fun id => (d.session id).map (c.leave id)) (d.clients.eraseIdx idx)
  | drop {m : Moment} {idx : Nat} {f : Frame} {c : Client} (hf : f.isAttach = false)
    (hc : d.clients[idx]? = some c) (hleaf : c.leaf = none) :
    Effect d (.frame m idx f) d.session (d.clients.eraseIdx idx)
  | refuse {m : Moment} {idx : Nat} {generation : UInt64} {sessionId : Option UInt64}
    {protocol : UInt8} {observe : Bool} {reason : RefuseReason} {g : Client → Client}
    (hsent : ∀ c : Client, c.Sent (g c) [⟨.refused reason, .control⟩]) :
    Effect d (.frame m idx (.attach generation sessionId protocol observe)) d.session
      (d.clients.modify idx g)
  | attach {m : Moment} {idx : Nat} {generation : UInt64} {sessionId : Option UInt64}
    {protocol : UInt8} {observe : Bool} {id : SessionId} {s : Session} {g : Client → Client}
    {qs : List Queued} (hprotocol : Frame.protocolSupported protocol)
    (hid : d.resolveAttach sessionId = some id) (hs : d.session id = some s)
    (hmine : s.attached → ¬ observe → d.leafOf idx = some id)
    (hshown : Shown s observe protocol qs)
    (hsent : ∀ c : Client,
      (c.attachTo id observe protocol s.pty.taken.length).Sent (g c) qs) :
    Effect d (.frame m idx (.attach generation sessionId protocol observe))
      (update d.session id (some (s.attach m generation observe))) (d.clients.modify idx g)
  | own {m : Moment} {idx : Nat} {f : Frame} {id : SessionId} {s t : Session} {c : Client}
    (hf : f.isAttach = false) (hinput : (d.observes idx && isInput f) = false)
    (hc : d.clients[idx]? = some c) (hleaf : c.leaf = some id)
    (hs : d.session id = some s) (hsteady : s.Steady t) :
    Effect d (.frame m idx f) (update d.session id (some t))
      (d.clients.set idx (creditClient f c))
  | reap {m : Moment} {id : SessionId} {s t : Session} (hs : d.session id = some s)
    (hsteady : s.Steady t) : Effect d (.reap m id) (update d.session id (some t)) d.clients
  | exit {m : Moment} {id : SessionId} {s t : Session} {status : Int32}
    (hs : d.session id = some s) (hsteady : s.Steady t) (halive : s.childExit = none)
    (hwait : Pty.tryWait.exec s.pty = (.ok (some status), t.pty))
    (hreaped : t.pty.reaped = some status)
    (hturn : s.pty.reaped = none → t.pty = { s.pty.turn.2 with reaped := some status } ∧
      s.pty.turn.2.exited = some status) :
    Effect d (.reap m id) (update d.session id (some (t.observeExit status))) d.clients
  | stall {id : SessionId} {s t : Session} (hs : d.session id = some s) (hsteady : s.Steady t) :
    Effect d (.drain id) (update d.session id (some t)) d.clients
  | fanout {id : SessionId} {s : Session} {p : Pty} {got : List UInt8} {g : Client → Client}
    (hs : d.session id = some s) (hpath : hasProtocol2 d id || d.isWorker)
    (hgot : got ≠ []) (hgives : s.pty.Gives p got)
    (hcredit : ∀ c ∈ d.clients, c.isWriter id → c.protocol ≠ protocol2 → got.length ≤ c.credit)
    (hother : ∀ c : Client, c.leaf ≠ some id → g c = c)
    (hshort : ∀ c : Client, c.credit < got.length → g c = c)
    (hsent : ∀ c ∈ d.clients, c.leaf = some id → got.length ≤ c.credit →
      (c.spend got.length).Sent (g c)
        [⟨c.liveFrame (min (s.bytesDelivered + got.length) u64Max) got,
          .live s.pty.taken.length⟩]) :
    Effect d (.drain id) (update d.session id (some ({ s with pty := p }.deliver got)))
      (d.clients.map g)
  | queue {id : SessionId} {s : Session} {p : Pty} {got : List UInt8}
    (hs : d.session id = some s) (hpath : (hasProtocol2 d id || d.isWorker) = false)
    (hgot : got ≠ []) (hcredit : got.length ≤ s.credit) (hgives : s.pty.Gives p got) :
    Effect d (.drain id)
      (update d.session id (some ({ s with pty := p }.deliverQueued s.pty.taken.length got)))
      d.clients
  | flush {g : Client → Client}
    (hsent : ∀ c ∈ d.clients, c.Sent (g c) (c.due (queued d c.leaf))) :
    Effect d .flush (flushed d) (d.clients.map g)
  | flushDrop {g : Client → Client} {l₁ l₂ : List Client} {c : Client}
    (hclients : d.clients = l₁ ++ c :: l₂)
    (hstop : ((Client.serve (queued d c.leaf)).exec c).1 = .error .write)
    (hsent : ∀ c ∈ l₁, c.Sent (g c) (c.due (queued d c.leaf))) :
    Effect d .flush (fun id => (flushed d id).map (c.leave id)) (l₁.map g ++ l₂)
  | skipResync {id : SessionId} {s : Session} (hs : d.session id = some s)
    (hskip : s.resyncPending = false ∨ hasProtocol2 d id) :
    Effect d (.resync id) (update d.session id (some s.takeResyncHistory.2)) d.clients
  | repaint {id : SessionId} {s : Session} {bytes : List UInt8} (hs : d.session id = some s)
    (hpending : s.resyncPending) (hprotocol : hasProtocol2 d id = false)
    (hbytes : ∃ chip, d.chip.resyncFromHistory s.history = .ok (bytes, chip)) :
    Effect d (.resync id)
      (update d.session id (some (s.takeResyncHistory.2.enqueueOutbound
        ⟨.data bytes, .repaint s.pty.taken.length⟩))) d.clients

-- ---------------------------------------------------------------------------
-- The programs an act is made of
-- ---------------------------------------------------------------------------

theorem exec_onKernel (m : Op Kernel Kernel.Error α) (d : Daemon) :
    (onKernel m).exec d = ((m.exec d.kernel).1.mapError .kernel, d.setKernel (m.exec d.kernel).2) :=
  rfl

theorem exec_onLeaf {d : Daemon} {id : SessionId} {s : Session} (h : d.session id = some s)
    (missing : α) (m : Op Session Kernel.Error α) :
    (onLeaf id missing m).exec d =
      ((m.exec s).1.mapError .kernel, d.setSession id (m.exec s).2) := by
  rw [onLeaf, Op.exec_get_bind, h]
  dsimp only
  rw [exec_onKernel, Kernel.exec_onSession h]
  rfl

theorem exec_onLeaf_none {d : Daemon} {id : SessionId} (h : d.session id = none) (missing : α)
    (m : Op Session Kernel.Error α) : (onLeaf id missing m).exec d = (.ok missing, d) := by
  rw [onLeaf, Op.exec_get_bind, h]
  rfl

/-- What is put in the outbox at `idx`, if anything can be. -/
theorem onClient_ok {idx : Nat} {m : Op Client Attach.Error Unit} {d d' : Daemon}
    (h : (onClient idx m).exec d = (.ok (), d')) :
    d' = d.modifyClient idx (fun c => (m.exec c).2) ∧
      ∀ c, d.clients[idx]? = some c → (m.exec c).1 = .ok () := by
  rw [onClient, Op.exec_get_bind] at h
  cases hc : d.clients[idx]? with
  | none =>
    rw [hc] at h
    obtain ⟨_, rfl⟩ := Prod.mk.inj h
    refine ⟨?_, fun c hc => by cases hc⟩
    rw [modifyClient, modify_of_none hc]
    rfl
  | some c =>
    rw [hc] at h
    dsimp only at h
    rw [Op.exec_modify_bind, Op.exec_mapError, Op.exec_lift] at h
    obtain ⟨hok, rfl⟩ := Prod.mk.inj h
    refine ⟨?_, ?_⟩
    · simp only [modifyClient, modify_of_get hc]
    · rintro _ ⟨⟩
      cases hm : (m.exec c).1 with
      | ok => rfl
      | error e =>
        rw [hm] at hok
        cases hok

theorem sendTo_ok {idx : Nat} {q : Queued} {d d' : Daemon}
    (h : (sendTo idx q).exec d = (.ok (), d')) :
    ∃ g : Client → Client, d' = d.modifyClient idx g ∧ ∀ c : Client, c.Sent (g c) [q] := by
  obtain ⟨rfl, hok⟩ := onClient_ok h
  refine ⟨fun c => c.push q ((q.frame.encode).toOption.getD []), ?_, fun c => .push c q _⟩
  cases hc : d.clients[idx]? with
  | none => simp only [modifyClient, modify_of_none hc]
  | some c =>
    have hrun := hok c hc
    rw [Client.exec_send] at hrun
    simp only [modifyClient, modify_of_get hc, Client.exec_send]
    cases hencode : q.frame.encode with
    | ok bytes => rfl
    | error e =>
      rw [hencode] at hrun
      cases hrun

theorem refuse_exec {idx : Nat} {c : Client} {d : Daemon} (hc : d.clients[idx]? = some c)
    (reason : RefuseReason) :
    (refuse idx reason).exec d = (.ok (), d.modifyClient idx fun c =>
      c.push ⟨.refused reason, .control⟩ (Frame.refused reason).wire) := by
  have hencode : (Frame.refused reason).encode = .ok (Frame.refused reason).wire := rfl
  rw [refuse, sendTo, onClient, Op.exec_get_bind, hc]
  dsimp only
  rw [Op.exec_modify_bind, Op.exec_mapError, Op.exec_lift, Client.exec_send, hencode]
  simp only [modifyClient, modify_of_get hc]
  rfl

/-- The kernel answered, or its child is dead; the daemon goes on. -/
theorem onFrame_ok {m : Moment} {id : SessionId} {f : Frame} {d d' : Daemon}
    (h : (onFrame m id f).exec d = (.ok (), d')) :
    ∃ s k, d.session id = some s ∧ d' = d.setKernel k ∧
      (((Session.onFrame m f).exec s).1 = .ok () ∨
        ((Session.onFrame m f).exec s).1 = .error .dead) ∧
      k.session = update d.session id (some ((Session.onFrame m f).exec s).2) := by
  rw [onFrame, Op.exec_bind, Op.exec_attempt, exec_onKernel] at h
  cases hs : d.session id with
  | none =>
    rw [Kernel.onFrame_none hs] at h
    cases h
  | some s =>
    obtain ⟨hr, hsession⟩ := Kernel.onFrame_spec hs m f
    refine ⟨s, ((Kernel.onFrame m id f).exec d.kernel).2, rfl, ?_, ?_, hsession⟩
    · revert h
      generalize (Kernel.onFrame m id f).exec d.kernel = run
      rcases run with ⟨(_ | _ | _ | _ | _) | _, k⟩
      case error.dead | ok => exact fun h => (Prod.mk.inj h).2.symm
      all_goals exact fun h => by cases h
    · rw [← hr]
      revert h
      generalize (Kernel.onFrame m id f).exec d.kernel = run
      rcases run with ⟨(_ | _ | _ | _ | _) | _, k⟩
      case error.dead => exact fun _ => .inr rfl
      case ok => exact fun _ => .inl rfl
      all_goals exact fun h => by cases h

/-- Whatever the answer, only the kernel changes, and of it only one session. -/
theorem onFrame_kernel (m : Moment) (id : SessionId) (f : Frame) (d : Daemon) :
    ((onFrame m id f).exec d).2 = d.setKernel ((Kernel.onFrame m id f).exec d.kernel).2 := by
  rw [onFrame, Op.exec_bind, Op.exec_attempt, exec_onKernel]
  generalize (Kernel.onFrame m id f).exec d.kernel = run
  rcases run with ⟨(_ | _ | _ | _ | _) | _, k⟩
  all_goals rfl

theorem onFrame_others (m : Moment) {id j : SessionId} (f : Frame) (d : Daemon) (hj : j ≠ id) :
    ((onFrame m id f).exec d).2.session j = d.session j := by
  rw [onFrame_kernel, session_setKernel]
  cases hs : d.session id with
  | none =>
    rw [Kernel.onFrame_none hs]
    rfl
  | some s =>
    rw [(Kernel.onFrame_spec hs m f).2, update_of_ne hj]
    rfl

def Shows (idx : Nat) (qs : List Queued) (d d' : Daemon) : Prop :=
  ∃ chip g, d' = (d.setChip chip).modifyClient idx g ∧ ∀ c : Client, c.Sent (g c) qs

theorem shows_nothing (idx : Nat) (d : Daemon) : Shows idx [] d d := by
  refine ⟨d.chip, id, ?_, fun c => .refl c⟩
  rw [modifyClient, List.modify_id]
  rfl

theorem setChipOr_ok {r : Except Vt.Error Vt.VtEngine} {d d' : Daemon}
    (h : (setChipOr r).exec d = (.ok (), d')) : ∃ chip, r = .ok chip ∧ d' = d.setChip chip := by
  cases r with
  | error e => cases h
  | ok chip => exact ⟨chip, rfl, (Prod.mk.inj h).2.symm⟩

theorem emitCheckpoint_frame {idx : Nat} {id : SessionId} {s : Session} {d d' : Daemon}
    (hs : d.session id = some s) (h : (emitCheckpoint idx id).exec d = (.ok (), d')) :
    ∃ chip g, chipFrom d.chip s.history = .ok chip ∧
      d' = (d.setChip chip.snapshot.2).modifyClient idx g ∧
      ∀ c : Client,
        c.Sent (g c) [⟨checkpointFrame s chip.snapshot.1, .repaint s.pty.taken.length⟩] := by
  rw [emitCheckpoint, Op.exec_get_bind, hs] at h
  dsimp only at h
  rw [Op.exec_get_bind] at h
  obtain ⟨_, u, hchip, h⟩ := Op.exec_bind_eq_ok.mp h
  obtain ⟨chip, hfrom, rfl⟩ := setChipOr_ok hchip
  rw [Op.exec_get_bind, Op.exec_modify_bind] at h
  obtain ⟨g, rfl, hg⟩ := sendTo_ok h
  exact ⟨chip, g, hfrom, rfl, hg⟩

theorem sendHistory_ok {idx : Nat} {id : SessionId} {s : Session} {d d' : Daemon}
    (hs : d.session id = some s) (h : (sendHistory idx id).exec d = (.ok (), d')) :
    Shows idx (if s.history = [] then [] else [⟨.data s.history, .repaint s.pty.taken.length⟩])
      d d' := by
  rw [sendHistory, Op.exec_get_bind, hs] at h
  dsimp only at h
  split at h
  case isTrue hempty =>
    obtain ⟨_, rfl⟩ := Prod.mk.inj h
    rw [if_pos (List.isEmpty_iff.mp hempty)]
    exact shows_nothing idx d
  case isFalse hsome =>
    obtain ⟨g, rfl, hg⟩ := sendTo_ok h
    rw [if_neg fun hempty => hsome (List.isEmpty_iff.mpr hempty)]
    exact ⟨d.chip, g, rfl, hg⟩

/-- What a client that has just attached is sent. -/
theorem shows_shown {idx : Nat} {id : SessionId} {s : Session} {protocol : UInt8} {observe : Bool}
    {d d' : Daemon} (hs : d.session id = some s)
    (h : (if protocol = protocol2 then emitCheckpoint idx id
      else if observe then sendHistory idx id else pure ()).exec d = (.ok (), d')) :
    ∃ qs, Shown s observe protocol qs ∧ Shows idx qs d d' := by
  split at h
  case isTrue hprotocol =>
    obtain ⟨chip, g, -, rfl, hg⟩ := emitCheckpoint_frame hs h
    refine ⟨_, ?_, _, g, rfl, hg⟩
    rw [Shown, if_pos hprotocol]
    exact ⟨_, rfl⟩
  case isFalse hprotocol =>
    split at h
    case isTrue hobserve =>
      refine ⟨_, ?_, sendHistory_ok hs h⟩
      rw [Shown, if_neg hprotocol]
      by_cases hempty : s.history = []
      · rw [if_pos hempty, if_neg fun hboth => hboth.2 hempty]
      · rw [if_neg hempty, if_pos ⟨hobserve, hempty⟩]
    case isFalse hobserve =>
      obtain ⟨_, rfl⟩ := Prod.mk.inj h
      refine ⟨[], ?_, shows_nothing idx d⟩
      rw [Shown, if_neg hprotocol, if_neg fun hboth => hobserve hboth.1]

-- ---------------------------------------------------------------------------
-- Each act
-- ---------------------------------------------------------------------------

structure Kept (d d' : Daemon) : Prop where
  isWorker : d'.isWorker = d.isWorker
  defaultId : d'.defaultId = d.defaultId

theorem Kept.refl (d : Daemon) : Kept d d := ⟨rfl, rfl⟩

theorem Kept.dropClient {d d' : Daemon} (h : Kept d d') (idx : Nat) :
    Kept d (d'.dropClient idx) := by
  unfold Daemon.dropClient
  split
  case h_1 => exact h
  case h_2 => exact ⟨h.isWorker, h.defaultId⟩

def Effect.At (d : Daemon) (a : Act) (d' : Daemon) : Prop :=
  Effect d a d'.session d'.clients ∧ Kept d d'

theorem attach_attached (s : Session) (m : Moment) (generation : UInt64) :
    (s.attach m generation false).attached = true := by
  unfold Session.attach
  split
  case isTrue h => cases h
  case isFalse =>
    split
    case isTrue h => exact h
    case isFalse => rfl

theorem attach_stream (s : Session) (m : Moment) (generation : UInt64) (observe : Bool) :
    (s.attach m generation observe).pty = s.pty ∧
      (s.attach m generation observe).ring = s.ring ∧
      (s.attach m generation observe).bytesDelivered = s.bytesDelivered := by
  unfold Session.attach
  split
  case isTrue => exact ⟨rfl, rfl, rfl⟩
  case isFalse =>
    split
    case isTrue => exact ⟨rfl, rfl, rfl⟩
    case isFalse => exact ⟨rfl, rfl, rfl⟩

theorem taken_attach (d : Daemon) {k : Kernel} {id : SessionId} {s : Session} {m : Moment}
    {generation : UInt64} {observe : Bool}
    (h : k.session id = some (s.attach m generation observe)) :
    (d.setKernel k).taken id = s.pty.taken.length := by
  rw [taken, session_setKernel, h]
  exact congrArg (fun p => p.taken.length) (attach_stream s m generation observe).1

theorem shown_attach {s : Session} {m : Moment} {generation : UInt64} {observe observe' : Bool}
    {protocol : UInt8} {qs : List Queued}
    (h : Shown (s.attach m generation observe') observe protocol qs) : Shown s observe protocol qs := by
  obtain ⟨hpty, hring, hdelivered⟩ := attach_stream s m generation observe'
  unfold Shown checkpointFrame Session.history at h ⊢
  rwa [hpty, hring, hdelivered] at h

/-- The kernel's answer to an ATTACH gives the client its role; what the leaf
looks like comes after. -/
theorem acceptAttach_role {m : Moment} {idx : Nat} {id : SessionId} {generation : UInt64}
    {sessionId : Option UInt64} {protocol : UInt8} {observe : Bool} {d d' : Daemon}
    (h : (acceptAttach m idx id generation sessionId protocol observe).exec d = (.ok (), d')) :
    ∃ s k, d.session id = some s ∧
      k.session = update d.session id (some (s.attach m generation observe)) ∧
      (if protocol = protocol2 then emitCheckpoint idx id
        else if observe then sendHistory idx id else pure ()).exec
          ((d.setKernel k).modifyClient idx fun c =>
            c.attachTo id observe protocol s.pty.taken.length) =
        (.ok (), d') := by
  obtain ⟨_, d₁, hframe, h⟩ := Op.exec_bind_eq_ok.mp h
  obtain ⟨s, k, hs, rfl, -, hk⟩ := onFrame_ok hframe
  rw [Session.onFrame_attach] at hk
  have hid : k.session id = some (s.attach m generation observe) := by rw [hk, update_self]
  rw [Op.exec_get_bind] at h
  have hcond : (observe || attached (d.setKernel k) id) = true := by
    cases observe with
    | true => rfl
    | false =>
      have hattached : attached (d.setKernel k) id = k.attached id := rfl
      rw [hattached, Kernel.attached_eq hid, attach_attached]
      rfl
  rw [if_pos hcond, Op.exec_modify_bind, taken_attach d hid] at h
  exact ⟨s, k, hs, hk, h⟩

/-- The chip's answer and the client's new role, after the kernel's. -/
theorem acceptAttach_ok {m : Moment} {idx : Nat} {id : SessionId} {generation : UInt64}
    {sessionId : Option UInt64} {protocol : UInt8} {observe : Bool} {d d' : Daemon}
    (h : (acceptAttach m idx id generation sessionId protocol observe).exec d = (.ok (), d')) :
    ∃ s g qs, d.session id = some s ∧ Kept d d' ∧
      d'.session = update d.session id (some (s.attach m generation observe)) ∧
      d'.clients = d.clients.modify idx g ∧
      (∀ c : Client, (c.attachTo id observe protocol s.pty.taken.length).Sent (g c) qs) ∧
      Shown s observe protocol qs := by
  obtain ⟨s, k, hs, hk, h⟩ := acceptAttach_role h
  have hid : k.session id = some (s.attach m generation observe) := by rw [hk, update_self]
  have hs' : ((d.setKernel k).modifyClient idx fun c =>
      c.attachTo id observe protocol s.pty.taken.length).session id =
        some (s.attach m generation observe) := hid
  obtain ⟨qs, hshown, chip, g, rfl, hg⟩ := shows_shown hs' h
  refine ⟨s, fun c => g (c.attachTo id observe protocol s.pty.taken.length), qs, hs, ⟨rfl, rfl⟩,
    hk, ?_, ?_, shown_attach hshown⟩
  · simp only [clients_modifyClient, clients_setChip, clients_setKernel]
    rw [List.modify_modify_eq]
    rfl
  · exact fun c => hg _

theorem refuse_ok {m : Moment} {idx : Nat} {generation : UInt64} {sessionId : Option UInt64}
    {protocol : UInt8} {observe : Bool} {reason : RefuseReason} {d d' : Daemon}
    (h : (refuse idx reason).exec d = (.ok (), d')) :
    Effect.At d (.frame m idx (.attach generation sessionId protocol observe)) d' := by
  obtain ⟨g, rfl, hg⟩ := sendTo_ok h
  exact ⟨.refuse hg, ⟨rfl, rfl⟩⟩

theorem dispatchAttach_ok {m : Moment} {idx : Nat} {generation : UInt64}
    {sessionId : Option UInt64} {protocol : UInt8} {observe : Bool} {d d' : Daemon}
    (h : (dispatchAttach m idx generation sessionId protocol observe).exec d = (.ok (), d')) :
    Effect.At d (.frame m idx (.attach generation sessionId protocol observe)) d' := by
  rw [dispatchAttach, Op.exec_get_bind] at h
  split at h
  case isTrue => exact refuse_ok h
  case isFalse hprotocol =>
    cases hid : d.resolveAttach sessionId with
    | none =>
      rw [hid] at h
      exact refuse_ok h
    | some id =>
      rw [hid] at h
      dsimp only at h
      split at h
      case isTrue => exact refuse_ok h
      case isFalse hmine =>
        obtain ⟨s, g, qs, hs, hkept, hsession, hclients, hsent, hshown⟩ := acceptAttach_ok h
        refine ⟨?_, hkept⟩
        rw [hsession, hclients]
        refine .attach (by simpa using hprotocol) hid hs ?_ hshown hsent
        intro hattached hobserve
        have hattached' : d.attached id = true := (Kernel.attached_eq hs).trans hattached
        simpa [hattached', hobserve] using hmine

theorem modifyClient_id (d : Daemon) (idx : Nat) : d.modifyClient idx (fun c => c) = d := by
  rw [modifyClient, show (fun c : Client => c) = id from rfl, List.modify_id]
  rfl

theorem exec_dispatchOwn (m : Moment) (idx : Nat) (id : SessionId) (f : Frame) (d : Daemon) :
    (dispatchOwn m idx id f).exec d = (onFrame m id f).exec (d.modifyClient idx (creditClient f)) := by
  cases f with
  | credit n => exact Op.exec_modify_bind _ _ d
  | data | resize | exit | attach | refused | checkpoint | delta | resyncRequest =>
    exact congrArg _ (modifyClient_id d idx).symm

theorem leafOf_eq_some {d : Daemon} {idx : Nat} {id : SessionId} :
    d.leafOf idx = some id ↔ ∃ c, d.clients[idx]? = some c ∧ c.leaf = some id := by
  simp only [leafOf, Option.bind_eq_some_iff]

theorem leave_none_map {c : Client} (h : c.leaf = none) (d : Daemon) :
    (fun id => (d.session id).map (c.leave id)) = d.session := by
  funext id
  have hid : c.leave id = fun s => s := funext fun s => Client.leave_of_none h id s
  rw [hid, Option.map_id']

theorem exec_dispatchFrame {m : Moment} {idx : Nat} {f : Frame} (hf : f.isAttach = false)
    (d : Daemon) :
    (dispatchFrame m idx f).exec d =
      (match d.leafOf idx with
        | none => (modify fun d : Daemon => d.dropClient idx : DaemonM Unit)
        | some id =>
          if d.observes idx && isInput f then pure () else dispatchOwn m idx id f).exec d := by
  cases f with
  | attach => cases hf
  | data | credit | resize | exit | refused | checkpoint | delta | resyncRequest =>
    exact Op.exec_get_bind _ d

theorem dispatchFrame_ok {m : Moment} {idx : Nat} {f : Frame} {d d' : Daemon}
    (h : (dispatchFrame m idx f).exec d = (.ok (), d')) : Effect.At d (.frame m idx f) d' := by
  by_cases hf : f.isAttach = true
  · cases f with
    | attach => exact dispatchAttach_ok h
    | data | credit | resize | exit | refused | checkpoint | delta | resyncRequest => cases hf
  · rw [Bool.not_eq_true] at hf
    rw [exec_dispatchFrame hf] at h
    cases hleaf : d.leafOf idx with
    | none =>
      rw [hleaf] at h
      obtain rfl : d.dropClient idx = d' := (Prod.mk.inj h).2
      refine ⟨?_, (Kept.refl d).dropClient idx⟩
      cases hc : d.clients[idx]? with
      | none =>
        rw [dropClient_of_none hc]
        exact .idle trivial
      | some c =>
        have hnone : c.leaf = none := by simpa [leafOf, hc] using hleaf
        rw [session_dropClient hc, clients_dropClient, leave_none_map hnone]
        exact .drop hf hc hnone
    | some id =>
      rw [hleaf] at h
      dsimp only at h
      obtain ⟨c, hc, hid⟩ := leafOf_eq_some.mp hleaf
      split at h
      case isTrue =>
        obtain ⟨_, rfl⟩ := Prod.mk.inj h
        exact ⟨.idle trivial, .refl d⟩
      case isFalse hinput =>
        rw [exec_dispatchOwn] at h
        obtain ⟨s, k, hs, rfl, -, hk⟩ := onFrame_ok h
        refine ⟨?_, ⟨rfl, rfl⟩⟩
        rw [session_setKernel, hk, clients_setKernel, clients_modifyClient, modify_of_get hc]
        exact .own hf (by simpa using hinput) hc hid hs (Session.onFrame_steady s m hf)

theorem fetchFrames_ok {idx : Nat} {frames : List Frame} {d d' : Daemon}
    (h : (fetchFrames idx).exec d = (.ok frames, d')) : Effect.At d (.fetch idx) d' := by
  rw [fetchFrames, Op.exec_get_bind] at h
  cases hc : d.clients[idx]? with
  | none =>
    rw [hc] at h
    obtain ⟨_, rfl⟩ := Prod.mk.inj h
    exact ⟨.idle trivial, .refl d⟩
  | some c =>
    have hupdate : ∀ c', c.Sent c' [] →
        Effect.At d (.fetch idx) (d.modifyClient idx fun _ => c') := by
      intro c' hsent
      refine ⟨?_, ⟨rfl, rfl⟩⟩
      rw [session_modifyClient, clients_modifyClient, modify_of_get hc]
      exact .fetch hc hsent
    have hdrop : Effect.At d (.fetch idx) (d.dropClient idx) := by
      refine ⟨?_, (Kept.refl d).dropClient idx⟩
      rw [session_dropClient hc, clients_dropClient]
      exact .hangup hc
    have hread : c.Sent (c.read socketBuf).2 [] := by
      unfold Client.read
      dsimp only
      split
      case h_1 => exact { Client.Sent.refl c with }
      case h_2 => exact { Client.Sent.refl c with }
    rw [hc] at h
    dsimp only at h
    revert h hread
    generalize c.read socketBuf = r
    obtain ⟨_ | _ | _ | _, c'⟩ := r
    case data bytes =>
      intro h hread
      dsimp only at h
      cases hpush : c'.decoder.push bytes with
      | error e =>
        rw [hpush] at h
        obtain ⟨_, rfl⟩ := Prod.mk.inj h
        exact hdrop
      | ok r =>
        rw [hpush] at h
        obtain ⟨_, rfl⟩ := Prod.mk.inj h
        exact hupdate _ { hread with }
    case eof =>
      intro h _
      obtain ⟨_, rfl⟩ := Prod.mk.inj h
      exact hdrop
    case wouldBlock =>
      intro h hread
      obtain ⟨_, rfl⟩ := Prod.mk.inj h
      exact hupdate c' hread
    case failed =>
      intro h _
      obtain ⟨_, rfl⟩ := Prod.mk.inj h
      exact hdrop

theorem spawnTabLeaf_ok {turns : List Turn} {d d' : Daemon}
    (h : (spawnTabLeaf (.ok turns)).exec d = (.ok (), d')) : Effect.At d (.spawn turns) d' := by
  rw [spawnTabLeaf, Op.exec_bind, Op.exec_mapError, Op.exec_lift] at h
  obtain ⟨_, rfl⟩ := Prod.mk.inj h
  refine ⟨?_, ⟨rfl, rfl⟩⟩
  rcases d.kernel.session_spawnLeaf (.spawn (.spawn d.size turns) false d.size) with
    hsame | ⟨id, hid, hnew⟩
  · rw [session_setKernel, hsame]
    exact .idle trivial
  · rw [session_setKernel, hnew]
    exact .spawn turns hid

theorem reap_effect {m : Moment} {id : SessionId} {d d' : Daemon}
    (h : (onKernel (Kernel.reap m id)).exec d = (.ok (), d')) :
    Effect.At d (.reap m id) d' := by
  rw [exec_onKernel] at h
  obtain ⟨hok, rfl⟩ := Prod.mk.inj h
  refine ⟨?_, ⟨rfl, rfl⟩⟩
  cases hs : d.session id with
  | none =>
    rw [Kernel.reap_none hs] at hok
    cases hok
  | some s =>
    obtain ⟨hr, hsession⟩ := Kernel.reap_spec hs m
    rw [session_setKernel, hsession, clients_setKernel]
    rw [hr] at hok
    rcases hrun : (Session.reap m).exec s with ⟨e | seen, t⟩
    · rw [hrun] at hok
      cases hok
    · rcases Session.reap_ok hrun with
        ⟨-, hsteady⟩ | ⟨u, status, rfl, hsteady, halive, hwait, hreaped, hturn⟩
      · exact .reap hs hsteady
      · exact .exit hs hsteady halive hwait hreaped hturn

theorem eachClient_ok {m : Op Client Attach.Error Unit} {d d' : Daemon}
    (h : (eachClient m).exec d = (.ok (), d')) :
    d' = d.setClients (d.clients.map fun c => (m.exec c).2) ∧
      ∀ c ∈ d.clients, (m.exec c).1 = .ok () := by
  rw [eachClient, Op.exec_get_bind] at h
  rcases Op.each_split m d.clients with hall | ⟨l₁, c, l₂, e, c', hsplit, hall, hc⟩
  · rw [Op.each_ok hall] at h
    obtain ⟨_, rfl⟩ := Prod.mk.inj h
    exact ⟨rfl, hall⟩
  · rw [hsplit, Op.each_error hall hc] at h
    cases h

theorem protocol1WriterCredit_le {clients : List Client} {id : SessionId} {cap : Nat}
    (h : protocol1WriterCredit clients id = some cap) {c : Client} (hc : c ∈ clients)
    (hwriter : c.isWriter id) (hprotocol : c.protocol ≠ protocol2) : cap ≤ c.credit := by
  have hmin := (List.min?_eq_some_iff.mp h).2
  apply hmin
  refine List.mem_map_of_mem (List.mem_filter.mpr ⟨hc, ?_⟩)
  simpa [hwriter] using hprotocol

theorem protocol1WriterCredit_none {clients : List Client} {id : SessionId}
    (h : protocol1WriterCredit clients id = none) {c : Client} (hc : c ∈ clients)
    (hwriter : c.isWriter id) : c.protocol = protocol2 := by
  rw [protocol1WriterCredit, List.min?_eq_none_iff, List.map_eq_nil_iff, List.filter_eq_nil_iff] at h
  simpa [hwriter] using h c hc

def backlog (d : Daemon) (id : SessionId) : Nat :=
  ((d.session id).map fun s => s.pty.backlog).getD 0

theorem backlog_eq {d : Daemon} {id : SessionId} {s : Session} (hs : d.session id = some s) :
    backlog d id = s.pty.backlog := by
  rw [backlog, hs]
  rfl

/-- A turn of the drain loop; after one that says there is another, less is left. -/
def Drained (d : Daemon) (id : SessionId) (more : Bool) (d' : Daemon) : Prop :=
  Effect.At d (.drain id) d' ∧ (more = true → backlog d' id < backlog d id)

theorem drained_idle (d : Daemon) (id : SessionId) : Drained d id false d :=
  ⟨⟨.idle trivial, .refl d⟩, fun h => by cases h⟩

theorem drained_stall {d : Daemon} {id : SessionId} {s t : Session} (hs : d.session id = some s)
    (hsteady : s.Steady t) : Drained d id false (d.setSession id t) := by
  refine ⟨⟨?_, ⟨rfl, rfl⟩⟩, fun h => by cases h⟩
  rw [session_setSession hs]
  exact .stall hs hsteady

theorem gives_backlog {p q : Pty} {got : List UInt8} (hgot : got ≠ []) (h : p.Gives q got) :
    q.backlog < p.backlog := by
  have hlen := List.length_pos_iff.mpr hgot
  have hbacklog := h.backlog
  omega

theorem drainToClients_ok {id : SessionId} {more : Bool} {d d' : Daemon}
    (hpath : hasProtocol2 d id || d.isWorker)
    (h : (drainToClients id).exec d = (.ok more, d')) : Drained d id more d' := by
  rw [drainToClients, Op.exec_get_bind] at h
  dsimp only at h
  cases hs : d.session id with
  | none =>
    split at h
    case isTrue =>
      rw [Op.exec_bind, exec_onLeaf_none hs] at h
      obtain ⟨⟨⟩, rfl⟩ := Prod.mk.inj h
      exact drained_idle d id
    case isFalse =>
      rw [Op.exec_bind, exec_onLeaf_none hs] at h
      obtain ⟨⟨⟩, rfl⟩ := Prod.mk.inj h
      exact drained_idle d id
  | some s =>
    split at h
    case isTrue =>
      rw [Op.exec_bind, exec_onLeaf hs] at h
      obtain ⟨⟨⟩, rfl⟩ := Prod.mk.inj h
      exact drained_stall hs { Session.Steady.refl s with }
    case isFalse =>
      rw [Op.exec_bind, exec_onLeaf hs] at h
      rcases Session.drainPtyAtMost_spec s (protocol1WriterCredit d.clients id) with
        ⟨r, t, hrun, hsteady, hr⟩ | ⟨got, p, hrun, hgot, hlen, hgives, halive⟩
      · rw [hrun] at h
        rcases r with e | _ | got
        · cases h
        · obtain ⟨⟨⟩, rfl⟩ := Prod.mk.inj h
          exact drained_stall hs hsteady
        · exact absurd rfl (hr got)
      · rw [hrun] at h
        dsimp only [Except.mapError] at h
        rw [Op.exec_get_bind] at h
        obtain ⟨_, u, hfan, h⟩ := Op.exec_bind_eq_ok.mp h
        obtain ⟨rfl, hall⟩ := eachClient_ok hfan
        obtain ⟨_, rfl⟩ := Prod.mk.inj h
        have hset := session_setSession hs (({ s with pty := p } : Session).deliver got)
        have hstart : taken (d.setSession id (({ s with pty := p } : Session).deliver got)) id -
            got.length = s.pty.taken.length := by
          have hp : p.taken.length = s.pty.taken.length + got.length := by
            rw [hgives.taken, List.length_append]
          rw [taken, hset, update_self]
          change p.taken.length - got.length = _
          omega
        rw [hstart] at hall ⊢
        refine ⟨⟨?_, ⟨rfl, rfl⟩⟩, fun _ => ?_⟩
        case refine_2 =>
          rw [backlog_eq hs, backlog, session_setClients, hset, update_self]
          exact gives_backlog hgot hgives
        rw [session_setClients, hset]
        refine .fanout hs hpath hgot hgives ?_ ?_ ?_ ?_
        · intro c hc hwriter hprotocol
          cases hcap : protocol1WriterCredit d.clients id with
          | none => exact absurd (protocol1WriterCredit_none hcap hc hwriter) hprotocol
          | some cap =>
            rw [hcap] at hlen
            have hle := protocol1WriterCredit_le hcap hc hwriter hprotocol
            have hcap' : got.length ≤ cap := Nat.le_trans hlen (Nat.min_le_left _ _)
            omega
        · intro c hleaf
          rw [Client.exec_fanout, if_neg fun h => hleaf h.1]
        · intro c hshort
          rw [Client.exec_fanout, if_neg fun h => by omega]
        · intro c hc hleaf hle
          have hok := hall c hc
          have hoffset : bytesDelivered (d.setSession id (({ s with pty := p } : Session).deliver got)) id =
              min (s.bytesDelivered + got.length) u64Max := by
            rw [bytesDelivered, hset, update_self]
            rfl
          rw [Client.exec_fanout, if_pos ⟨hleaf, hle⟩, hoffset] at hok ⊢
          exact Client.send_sent hok

theorem drainToQueue_ok {id : SessionId} {more : Bool} {d d' : Daemon}
    (hpath : (hasProtocol2 d id || d.isWorker) = false)
    (h : (drainToQueue id).exec d = (.ok more, d')) : Drained d id more d' := by
  rw [drainToQueue] at h
  cases hs : d.session id with
  | none =>
    rw [Op.exec_bind, exec_onLeaf_none hs] at h
    obtain ⟨⟨⟩, rfl⟩ := Prod.mk.inj h
    exact drained_idle d id
  | some s =>
    rw [Op.exec_bind, exec_onLeaf hs, Op.exec_get_bind] at h
    split at h
    case h_2 => cases h
    case h_1 n d₁ hrun =>
      obtain ⟨hmore, rfl⟩ := Prod.mk.inj h
      obtain ⟨hn, rfl⟩ := Prod.mk.inj hrun
      obtain rfl : decide (n > 0) = more := Except.ok.inj hmore
      split at hn
      case isFalse hcredit =>
        obtain rfl : 0 = n := Except.ok.inj hn
        rw [if_neg hcredit]
        exact drained_stall hs (.refl s)
      case isTrue hcredit =>
        rw [if_pos hcredit]
        rcases Session.onPtyReadable_spec s with ⟨r, t, hread, hsteady, -, hr⟩ |
          ⟨got, p, hread, hgot, hlen, hgives⟩
        · rw [hread] at hn ⊢
          cases r with
          | error e => cases hn
          | ok n' =>
            obtain rfl : n' = n := Except.ok.inj hn
            have hzero : decide (n' > 0) = false :=
              decide_eq_false fun hpos => hr n' hpos rfl
            rw [hzero]
            exact drained_stall hs hsteady
        · rw [hread]
          refine ⟨⟨?_, ⟨rfl, rfl⟩⟩, fun _ => ?_⟩
          · rw [session_setSession hs]
            exact .queue hs hpath hgot (Nat.le_trans hlen (Nat.min_le_left _ _)) hgives
          · rw [backlog_eq hs, backlog, session_setSession hs, update_self]
            exact gives_backlog hgot hgives

theorem drainOnce_ok {id : SessionId} {more : Bool} {d d' : Daemon}
    (h : (drainOnce id).exec d = (.ok more, d')) : Drained d id more d' := by
  rw [drainOnce, Op.exec_get_bind] at h
  split at h
  case isTrue hpath => exact drainToClients_ok hpath h
  case isFalse hpath => exact drainToQueue_ok (by simpa using hpath) h

theorem flushOutbound_ok {d d' : Daemon} (h : flushOutbound.exec d = (.ok (), d')) :
    Effect.At d .flush d' := by
  rw [flushOutbound, Op.exec_get_bind, Op.exec_modify_bind] at h
  have hserve : ∀ c : Client,
      ((do Client.serve (queued d (← get).leaf)) : Op Client Client.Stop Unit).exec c =
        (Client.serve (queued d c.leaf)).exec c := fun c => Op.exec_get_bind _ c
  rcases Op.each_split (do Client.serve (queued d (← get).leaf)) d.clients with
    hall | ⟨l₁, c, l₂, e, c', hsplit, hall, hc⟩
  · rw [Op.each_ok hall] at h
    obtain ⟨_, rfl⟩ := Prod.mk.inj h
    refine ⟨.flush fun c hmem => ?_, ⟨rfl, rfl⟩⟩
    have hok := hall c hmem
    rw [hserve] at hok ⊢
    exact Client.serve_sent hok
  · rw [hsplit, Op.each_error hall hc] at h
    dsimp only at h
    rw [Op.exec_modify_bind] at h
    cases e with
    | encode e => cases h
    | write =>
      obtain rfl : dropClient _ _ = d' := (Prod.mk.inj h).2
      have hkept : ∀ k clients, Kept d ((d.setKernel k).setClients clients) :=
        fun _ _ => ⟨rfl, rfl⟩
      refine ⟨?_, (hkept _ _).dropClient _⟩
      have hsent : ∀ c ∈ l₁, c.Sent
          (((do Client.serve (queued d (← get).leaf)) : Op Client Client.Stop Unit).exec c).2
            (c.due (queued d c.leaf)) := by
        intro c hmem
        have hok := hall c hmem
        rw [hserve] at hok ⊢
        exact Client.serve_sent hok
      obtain ⟨hleaf, hobserve⟩ : c'.leaf = c.leaf ∧ c'.observe = c.observe := by
        have hrole := Client.serve_role (queued d c.leaf) c
        rw [hserve] at hc
        rwa [hc] at hrole
      have hleave : c'.leave = c.leave := by
        funext id s
        rw [Client.leave, Client.leave, hleaf, hobserve]
      have hget : ∀ (l : List Client), l.length = l₁.length →
          (l ++ c' :: l₂)[l₁.length]? = some c' := by
        intro l hl
        rw [← hl]
        simp
      rw [clients_dropClient, session_dropClient (hget _ (by simp)), hleave, clients_setClients]
      have herase := eraseIdx_split (l₁.map fun c =>
        (((do Client.serve (queued d (← get).leaf)) : Op Client Client.Stop Unit).exec c).2) l₂ c'
      rw [List.length_map] at herase
      rw [herase, ← hsplit]
      refine .flushDrop hsplit ?_ hsent
      rw [← hserve, hc]

theorem takeResyncHistory_exec (s : Session) :
    (do
      let (history, t) := (← get).takeResyncHistory
      set t
      pure history : Op Session Kernel.Error (Option (List UInt8))).exec s =
        (.ok s.takeResyncHistory.1, s.takeResyncHistory.2) := rfl

/-- A leaf whose repaint is due and has no protocol-2 client: the repaint is
queued behind what is there. -/
theorem resyncLeaf_repaint {id : SessionId} {s : Session} {d d' : Daemon}
    (hs : d.session id = some s) (hpending : s.resyncPending)
    (hprotocol : hasProtocol2 d id = false) (h : (resyncLeaf id).exec d = (.ok (), d')) :
    ∃ bytes chip, d.chip.resyncFromHistory s.history = .ok (bytes, chip) ∧
      d' = ((d.setSession id s.takeResyncHistory.2).setChip chip).setSession id
        (s.takeResyncHistory.2.enqueueOutbound ⟨.data bytes, .repaint s.pty.taken.length⟩) := by
  rw [resyncLeaf, Op.exec_bind, exec_onLeaf hs, takeResyncHistory_exec] at h
  have hset := session_setSession hs s.takeResyncHistory.2
  have htake : s.takeResyncHistory.1 = some s.history := by
    simp [Session.takeResyncHistory, hpending]
  rw [htake] at h
  dsimp only [Except.mapError] at h
  rw [Op.exec_get_bind] at h
  have hproto : ¬ hasProtocol2 (d.setSession id s.takeResyncHistory.2) id = true := by
    change ¬ hasProtocol2 d id = true
    simp [hprotocol]
  rw [if_neg hproto] at h
  have hchip : (d.setSession id s.takeResyncHistory.2).chip = d.chip := rfl
  rw [hchip] at h
  cases hresync : d.chip.resyncFromHistory s.history with
  | error e =>
    rw [hresync] at h
    cases h
  | ok r =>
    obtain ⟨bytes, chip⟩ := r
    have hbytes : bytes.isEmpty = false := by
      simpa using Vt.VtEngine.resyncFromHistory_ne_nil hresync
    rw [hresync] at h
    dsimp only at h
    have hs' : ((d.setSession id s.takeResyncHistory.2).setChip chip).session id =
        some s.takeResyncHistory.2 := by
      rw [session_setChip, hset, update_self]
    have htaken : taken (d.setSession id s.takeResyncHistory.2) id = s.pty.taken.length := by
      rw [taken, hset, update_self]
      rfl
    rw [Op.exec_modify_bind, if_neg (by simp [hbytes]), exec_onLeaf hs', htaken] at h
    exact ⟨bytes, chip, rfl, (Prod.mk.inj h).2.symm⟩

theorem resyncLeaf_skip {id : SessionId} {s : Session} {d d' : Daemon}
    (hs : d.session id = some s) (hskip : s.resyncPending = false ∨ hasProtocol2 d id = true)
    (h : (resyncLeaf id).exec d = (.ok (), d')) : d' = d.setSession id s.takeResyncHistory.2 := by
  rw [resyncLeaf, Op.exec_bind, exec_onLeaf hs, takeResyncHistory_exec] at h
  cases hpending : s.resyncPending with
  | false =>
    have htake : s.takeResyncHistory.1 = none := by simp [Session.takeResyncHistory, hpending]
    rw [htake] at h
    exact (Prod.mk.inj h).2.symm
  | true =>
    have htake : s.takeResyncHistory.1 = some s.history := by
      simp [Session.takeResyncHistory, hpending]
    have hprotocol : hasProtocol2 d id = true := by simpa [hpending] using hskip
    rw [htake] at h
    dsimp only [Except.mapError] at h
    rw [Op.exec_get_bind] at h
    change (if hasProtocol2 d id = true then _ else _ : DaemonM Unit).exec _ = _ at h
    rw [if_pos hprotocol] at h
    exact (Prod.mk.inj h).2.symm

theorem resyncLeaf_ok {id : SessionId} {d d' : Daemon}
    (h : (resyncLeaf id).exec d = (.ok (), d')) : Effect.At d (.resync id) d' := by
  cases hs : d.session id with
  | none =>
    rw [resyncLeaf, Op.exec_bind, exec_onLeaf_none hs] at h
    obtain ⟨_, rfl⟩ := Prod.mk.inj h
    exact ⟨.idle hs, .refl d⟩
  | some s =>
    have hset := session_setSession hs s.takeResyncHistory.2
    by_cases hrepaint : s.resyncPending = true ∧ hasProtocol2 d id = false
    · obtain ⟨hpending, hprotocol⟩ := hrepaint
      obtain ⟨bytes, chip, hbytes, rfl⟩ := resyncLeaf_repaint hs hpending hprotocol h
      have hs' : ((d.setSession id s.takeResyncHistory.2).setChip chip).session id =
          some s.takeResyncHistory.2 := by
        rw [session_setChip, hset, update_self]
      refine ⟨?_, ⟨rfl, rfl⟩⟩
      rw [session_setSession hs', session_setChip, hset, update_idem]
      exact .repaint hs hpending hprotocol ⟨chip, hbytes⟩
    · have hskip : s.resyncPending = false ∨ hasProtocol2 d id = true := by
        cases hpending : s.resyncPending with
        | false => exact .inl rfl
        | true => exact .inr (by simpa [hpending] using hrepaint)
      obtain rfl := resyncLeaf_skip hs hskip h
      refine ⟨?_, ⟨rfl, rfl⟩⟩
      rw [hset]
      exact .skipResync hs hskip

/-- Every act that succeeds has one of the effects listed. -/
theorem Act.Takes.effect {d d' : Daemon} {a : Act} (h : a.Takes d d') : Effect.At d a d' := by
  obtain ⟨henabled, hrun⟩ := h
  cases a with
  | accept stream =>
    obtain rfl : d.acceptClient stream = d' := (Prod.mk.inj hrun).2
    exact ⟨.accept stream, ⟨rfl, rfl⟩⟩
  | spawn turns => exact spawnTabLeaf_ok hrun
  | fetch idx =>
    obtain ⟨frames, u, hfetch, hpure⟩ := Op.exec_bind_eq_ok.mp hrun
    obtain rfl : u = d' := (Prod.mk.inj hpure).2
    exact fetchFrames_ok hfetch
  | frame m idx f => exact dispatchFrame_ok hrun
  | reap m id => exact reap_effect hrun
  | drain id =>
    obtain ⟨more, u, hdrain, hpure⟩ := Op.exec_bind_eq_ok.mp hrun
    obtain rfl : u = d' := (Prod.mk.inj hpure).2
    exact (drainOnce_ok hdrain).1
  | flush => exact flushOutbound_ok hrun
  | resync id => exact resyncLeaf_ok hrun

end Rill.Daemon
