import Mathlib.Data.List.InsertIdx
import Rill.Daemon.Trace
import Rill.Lib.Ledger

/-!
# Claims and connections

The daemon as a ledger: its connections hold or watch leaves, its sessions say
which leaves are held and how many watch them. Every act is a move of the
ledger or leaves it alone (`Effect.moves`), so how far the two sides agree is
settled on the ledger.
-/

namespace Rill.Daemon

open Lib Attach Kernel Function

-- ---------------------------------------------------------------------------
-- The ledger of a daemon
-- ---------------------------------------------------------------------------

def Client.role (c : Client) : Role SessionId :=
  match c.leaf with
  | none => .idle
  | some id => if c.observe then .watcher id else .holder id

/-- Whether a leaf is held, and how many watch it, as its session has it. -/
def claim (s : Option Session) : Bool × Nat := (s.any Session.attached, (s.map Session.observers).getD 0)

def ledgerOf (S : Sessions) (C : List Client) : Ledger SessionId where
  roles := C.map Client.role
  held id := (claim (S id)).1
  watchers id := (claim (S id)).2

def ledger (d : Daemon) : Ledger SessionId := ledgerOf d.session d.clients

theorem ledgerOf_congr {S S' : Sessions} {C C' : List Client} (hS : ∀ id, claim (S id) = claim (S' id))
    (hC : C.map Client.role = C'.map Client.role) : ledgerOf S C = ledgerOf S' C' := by
  simp only [ledgerOf, hC, hS]

theorem claim_update {S : Sessions} {id : SessionId} {s t : Session} (hs : S id = some s)
    (h : claim (some t) = claim (some s)) (j : SessionId) :
    claim (update S id (some t) j) = claim (S j) := by
  by_cases hj : j = id
  · subst hj
    rw [update_self, hs, h]
  · rw [update_of_ne hj]

theorem claim_steady {s t : Session} (h : s.Steady t) : claim (some t) = claim (some s) := by
  simp [claim, Session.attached, h.attachGeneration, h.observers]

theorem Client.Sent.role {c c' : Client} {qs : List Queued} (h : c.Sent c' qs) :
    c'.role = c.role := by
  simp only [Client.role, h.leaf, h.observe]

theorem role_attachTo (c : Client) (id : SessionId) (observe : Bool) (protocol : UInt8)
    (taken : Nat) :
    (c.attachTo id observe protocol taken).role = if observe then .watcher id else .holder id := rfl

theorem role_creditClient (f : Frame) (c : Client) : (creditClient f c).role = c.role := by
  obtain ⟨hleaf, hobserve, -⟩ := creditClient_role f c
  rw [Client.role, Client.role, hleaf, hobserve]

theorem role_eq_holder {c : Client} {id : SessionId} :
    c.role = .holder id ↔ c.isWriter id = true := by
  unfold Client.role Client.isWriter
  cases hleaf : c.leaf with
  | none => simp
  | some j =>
    cases c.observe with
    | true => simp
    | false => simp

theorem role_eq_watcher {c : Client} {id : SessionId} :
    c.role = .watcher id ↔ c.isObserver id = true := by
  unfold Client.role Client.isObserver
  cases hleaf : c.leaf with
  | none => simp
  | some j =>
    cases c.observe with
    | true => simp
    | false => simp

theorem role_eq_idle {c : Client} : c.role = .idle ↔ c.leaf = none := by
  unfold Client.role
  cases hleaf : c.leaf with
  | none => simp
  | some j =>
    cases c.observe with
    | true => simp
    | false => simp

theorem roles_modify {C : List Client} {idx : Nat} {g : Client → Client} {r : Role SessionId}
    (h : ∀ c, (g c).role = r) :
    (C.modify idx g).map Client.role = (C.map Client.role).set idx r := by
  cases hc : C[idx]? with
  | none =>
    rw [modify_of_none hc, List.set_eq_of_length_le]
    simpa using List.getElem?_eq_none_iff.mp hc
  | some c => rw [modify_of_get hc, List.map_set, h]

theorem roles_set {C : List Client} {idx : Nat} {c c' : Client} (hc : C[idx]? = some c)
    (h : c'.role = c.role) : (C.set idx c').map Client.role = C.map Client.role := by
  obtain ⟨l₁, l₂, rfl, rfl⟩ := exists_split hc
  rw [set_split, List.map_append, List.map_append, List.map_cons, List.map_cons, h]

theorem claim_leave (S : Sessions) (C : List Client) (c : Client) :
    ledgerOf (fun id => (S id).map (c.leave id)) C = (ledgerOf S C).release c.role := by
  have hclaim : ∀ j, claim ((S j).map (c.leave j)) =
      match c.role with
      | .idle => claim (S j)
      | .holder i => if j = i then (false, (claim (S j)).2) else claim (S j)
      | .watcher i => if j = i then ((claim (S j)).1, (claim (S j)).2 - 1) else claim (S j) := by
    intro j
    unfold Client.role Client.leave
    cases hleaf : c.leaf with
    | none => simp
    | some i =>
      by_cases hj : j = i
      · subst hj
        cases S j with
        | none => cases c.observe with
          | true => simp [claim]
          | false => simp [claim]
        | some s => cases c.observe with
          | true => simp [claim, releaseRole, Session.releaseObserver, Session.attached]
          | false => simp [claim, releaseRole, Session.detach, Session.release, Session.attached]
      · have hi : ¬ some i = some j := fun h => hj (Option.some.inj h).symm
        cases c.observe with
        | true => simp [hi, hj]
        | false => simp [hi, hj]
  unfold ledgerOf
  simp only [hclaim]
  cases c.role with
  | idle => rfl
  | holder i =>
    simp only [Ledger.release, Ledger.mk.injEq, true_and]
    refine ⟨funext fun j => ?_, funext fun j => ?_⟩
    · by_cases hj : j = i
      · simp [hj]
      · simp [hj]
    · by_cases hj : j = i
      · simp [hj]
      · simp [hj]
  | watcher i =>
    simp only [Ledger.release, Ledger.mk.injEq, true_and]
    refine ⟨funext fun j => ?_, funext fun j => ?_⟩
    · by_cases hj : j = i
      · simp [hj]
      · simp [hj]
    · by_cases hj : j = i
      · simp [hj]
      · simp [hj]

theorem claim_flushed (d : Daemon) (id : SessionId) :
    claim (flushed d id) = claim (d.session id) := by
  cases hs : d.session id with
  | none =>
    have hs' : d.kernel.session id = none := hs
    rw [flushed, Kernel.session_takeOutbound, hs']
    rfl
  | some s =>
    rw [flushed_eq hs]
    rfl

theorem claim_attach {S : Sessions} {id : SessionId} {s : Session} (hs : S id = some s) (m : Moment)
    (generation : UInt64) (j : SessionId) :
    claim (update S id (some (s.attach m generation false)) j) =
        (if j = id then true else (claim (S j)).1, (claim (S j)).2) ∧
      claim (update S id (some (s.attach m generation true)) j) =
        ((claim (S j)).1,
          if j = id then min ((claim (S j)).2 + 1) u32Max else (claim (S j)).2) := by
  by_cases hj : j = id
  · subst hj
    rw [update_self, update_self, hs, if_pos rfl, if_pos rfl]
    have hattached := attach_attached s m generation
    have hobservers : (s.attach m generation false).observers = s.observers := by
      unfold Session.attach
      split
      case isTrue => contradiction
      case isFalse =>
        split
        case isTrue => rfl
        case isFalse => rfl
    exact ⟨by simp [claim, hattached, hobservers], rfl⟩
  · rw [update_of_ne hj, update_of_ne hj, if_neg hj, if_neg hj]
    exact ⟨rfl, rfl⟩

/-- The act is an ATTACH to `id` that is not refused before its session sees it. -/
def Asks (d : Daemon) (a : Act) (slot : Nat) (id : SessionId) (observe : Bool) : Prop :=
  ∃ m generation sessionId protocol,
    a = .frame m slot (.attach generation sessionId protocol observe) ∧
      Frame.protocolSupported protocol ∧ d.resolveAttach sessionId = some id ∧
      (d.attached id → ¬ observe → d.leafOf slot = some id)

/-- A move of the ledger that the act accounts for. -/
def Explains (d : Daemon) (a : Act) : Move SessionId → Prop
  | .hold slot id => Asks d a slot id false
  | .watch slot id => Asks d a slot id true
  | .come | .go _ => True

theorem ledgerOf_leave {d : Daemon} {S : Sessions} {C : List Client} {idx : Nat} {c : Client}
    (hS : ∀ id, claim (S id) = claim (d.session id)) (hC : C.map Client.role = d.clients.map Client.role)
    (hc : C[idx]? = some c) :
    ledgerOf (fun id => (S id).map (c.leave id)) (C.eraseIdx idx) = (ledger d).apply u32Max (.go idx) := by
  have hslot : (ledger d).roles[idx]? = some c.role := by
    rw [ledger, ledgerOf, ← hC, List.getElem?_map, hc]
    rfl
  rw [claim_leave]
  simp only [Ledger.apply, hslot]
  have hroles : (C.eraseIdx idx).map Client.role = (ledger d).roles.eraseIdx idx := by
    rw [← List.eraseIdx_map, hC]
    rfl
  cases c.role with
  | idle => simp only [Ledger.release, ledger, ledgerOf, hS, hroles]
  | holder i => simp only [Ledger.release, ledger, ledgerOf, hS, hroles]
  | watcher i => simp only [Ledger.release, ledger, ledgerOf, hS, hroles]

theorem ledgerOf_spawn {d : Daemon} {id : SessionId} (hid : d.session id = none) (turns : List Turn) :
    ledgerOf (update d.session id (some (.spawn (.spawn d.size turns) false d.size))) d.clients =
      ledger d := by
  refine ledgerOf_congr (fun j => ?_) rfl
  by_cases hj : j = id
  · rw [hj, update_self, hid]
    rfl
  · rw [update_of_ne hj]

theorem ledgerOf_attach {d : Daemon} {m : Moment} {idx : Nat} {generation : UInt64} {observe : Bool}
    {id : SessionId} {s : Session} {g : Client → Client} (hs : d.session id = some s)
    (hroles : ∀ c, (g c).role = if observe then .watcher id else .holder id) :
    ledgerOf (update d.session id (some (s.attach m generation observe))) (d.clients.modify idx g) =
      (ledger d).apply u32Max (if observe then .watch idx id else .hold idx id) := by
  have hclaim := claim_attach hs m generation
  cases observe with
  | true =>
    simp only [ledgerOf, ledger, Ledger.apply, roles_modify hroles, hclaim, if_true]
    refine (Ledger.mk.injEq ..).mpr ⟨rfl, rfl, funext fun j => ?_⟩
    by_cases hj : j = id
    · rw [if_pos hj, hj, update_self]
    · rw [if_neg hj, update_of_ne hj]
  | false =>
    simp only [ledgerOf, ledger, Ledger.apply, roles_modify hroles, hclaim, Bool.false_eq_true, if_false]
    refine (Ledger.mk.injEq ..).mpr ⟨rfl, funext fun j => ?_, rfl⟩
    by_cases hj : j = id
    · rw [if_pos hj, hj, update_self]
    · rw [if_neg hj, update_of_ne hj]

/-- Everyone in front of the client that goes keeps the role. -/
theorem ledgerOf_flushDrop {d : Daemon} {g : Client → Client} {l₁ l₂ : List Client} {c : Client}
    (hclients : d.clients = l₁ ++ c :: l₂) (hroles : ∀ c ∈ l₁, (g c).role = c.role) :
    ledgerOf (fun id => (flushed d id).map (c.leave id)) (l₁.map g ++ l₂) =
      (ledger d).apply u32Max (.go l₁.length) := by
  have hkept : (l₁.map g ++ c :: l₂).map Client.role = d.clients.map Client.role := by
    rw [hclients, List.map_append, List.map_append, List.map_map]
    exact congrArg (· ++ _) (List.map_congr_left hroles)
  have herase := eraseIdx_split (l₁.map g) l₂ c
  rw [List.length_map] at herase
  have hc : (l₁.map g ++ c :: l₂)[l₁.length]? = some c := by simp
  have hrun := ledgerOf_leave (claim_flushed d) hkept hc
  rwa [herase] at hrun

/-- Every act leaves the ledger alone or moves it. -/
theorem Effect.moves {d : Daemon} {a : Act} {S : Sessions} {C : List Client}
    (h : Effect d a S C) : ledgerOf S C = ledger d ∨
      ∃ mv, ledgerOf S C = (ledger d).apply u32Max mv ∧ Explains d a mv := by
  cases h with
  | idle => exact .inl rfl
  | accept stream =>
    refine .inr ⟨.come, ?_, trivial⟩
    simp only [ledgerOf, ledger, Ledger.apply, List.map_append]
    rfl
  | spawn turns hid => exact .inl (ledgerOf_spawn hid turns)
  | fetch hc hsent => exact .inl (ledgerOf_congr (fun _ => rfl) (roles_set hc hsent.role))
  | hangup hc => exact .inr ⟨.go _, ledgerOf_leave (fun _ => rfl) rfl hc, trivial⟩
  | drop hf hc hleaf =>
    have hleave := leave_none_map hleaf d
    exact .inr ⟨.go _, hleave ▸ ledgerOf_leave (fun _ => rfl) rfl hc, trivial⟩
  | @refuse m idx _ _ _ _ _ g hsent =>
    refine .inl (ledgerOf_congr (fun _ => rfl) ?_)
    cases hc : d.clients[idx]? with
    | none => rw [modify_of_none hc]
    | some c =>
      rw [modify_of_get hc]
      exact roles_set hc (hsent c).role
  | @attach m idx generation sessionId protocol observe id s g qs hprotocol hid hs hmine hqs hsent =>
    have hroles : ∀ c, (g c).role = if observe then .watcher id else .holder id :=
      fun c => (hsent c).role.trans (role_attachTo c id observe protocol _)
    have hasks : Asks d (.frame m idx (.attach generation sessionId protocol observe)) idx id
        observe := by
      refine ⟨m, generation, sessionId, protocol, rfl, hprotocol, hid, fun hattached => ?_⟩
      exact hmine ((Kernel.attached_eq hs).symm.trans hattached)
    cases observe with
    | true => exact .inr ⟨.watch idx id, ledgerOf_attach hs hroles, hasks⟩
    | false => exact .inr ⟨.hold idx id, ledgerOf_attach hs hroles, hasks⟩
  | own _ _ hc _ hs hsteady =>
    exact .inl (ledgerOf_congr (claim_update hs (claim_steady hsteady))
      (roles_set hc (role_creditClient _ _)))
  | reap hs hsteady => exact .inl (ledgerOf_congr (claim_update hs (claim_steady hsteady)) rfl)
  | @exit m id s t status hs hsteady =>
    have hexit : claim (some (t.observeExit status)) = claim (some t) := rfl
    exact .inl (ledgerOf_congr (claim_update hs (hexit.trans (claim_steady hsteady))) rfl)
  | stall hs hsteady => exact .inl (ledgerOf_congr (claim_update hs (claim_steady hsteady)) rfl)
  | @fanout id s p got g hs _ _ _ _ hother hshort hsent =>
    refine .inl (ledgerOf_congr (claim_update hs rfl) ?_)
    rw [List.map_map]
    refine List.map_congr_left fun c hc => ?_
    by_cases hleaf : c.leaf = some id
    · by_cases hle : got.length ≤ c.credit
      · exact (hsent c hc hleaf hle).role
      · exact congrArg Client.role (hshort c (Nat.lt_of_not_le hle))
    · exact congrArg Client.role (hother c hleaf)
  | queue hs => exact .inl (ledgerOf_congr (claim_update hs rfl) rfl)
  | flush hsent =>
    refine .inl (ledgerOf_congr (claim_flushed d) ?_)
    rw [List.map_map]
    exact List.map_congr_left fun c hc => (hsent c hc).role
  | flushDrop hclients _ hsent =>
    exact .inr ⟨.go _, ledgerOf_flushDrop hclients fun c hc => (hsent c hc).role, trivial⟩
  | skipResync hs => exact .inl (ledgerOf_congr (claim_update hs rfl) rfl)
  | repaint hs => exact .inl (ledgerOf_congr (claim_update hs rfl) rfl)

/-- The daemon simulates its ledger. -/
theorem Act.Takes.moves {d d' : Daemon} {a : Act} (h : a.Takes d d') : ledger d' = ledger d ∨
    ∃ mv, ledger d' = (ledger d).apply u32Max mv ∧ Explains d a mv := h.effect.1.moves

theorem ledger_bind {pty : Pty} {size : Winsize} {isWorker : Bool} {d : Daemon}
    (h : Daemon.bind pty size isWorker = .ok d) : Ledger.Exact (ledger d) := by
  obtain ⟨hclients, -, hsession⟩ := bind_ok h
  have hclaim : ∀ id, claim (d.session id) = (false, 0) := by
    intro id
    rw [hsession]
    by_cases hid : id = d.defaultId
    · rw [hid, update_self]
      rfl
    · rw [update_of_ne hid]
      rfl
  intro id
  simp only [ledger, ledgerOf, hclients, hclaim]
  exact ⟨rfl, rfl⟩

theorem attached_iff {d : Daemon} {id : SessionId} :
    d.attached id = true ↔ ∃ s, d.session id = some s ∧ s.attached = true := by
  simp [attached, Kernel.attached, session, Option.any_eq_true]

theorem attached_eq (d : Daemon) (id : SessionId) : (ledger d).held id = d.attached id := rfl

theorem count_holder (d : Daemon) (id : SessionId) :
    (ledger d).roles.count (.holder id) = d.clients.countP fun c => c.isWriter id := by
  rw [List.count, ledger, ledgerOf, List.countP_map]
  refine List.countP_congr fun c _ => ?_
  rw [Function.comp, beq_iff_eq]
  exact role_eq_holder

theorem count_watcher (d : Daemon) (id : SessionId) :
    (ledger d).roles.count (.watcher id) = d.clients.countP fun c => c.isObserver id := by
  rw [List.count, ledger, ledgerOf, List.countP_map]
  refine List.countP_congr fun c _ => ?_
  rw [Function.comp, beq_iff_eq]
  exact role_eq_watcher

theorem roles_get {d : Daemon} {slot : Nat} {c : Client} (h : d.clients[slot]? = some c) :
    (ledger d).roles[slot]? = some c.role := by
  rw [ledger, ledgerOf, List.getElem?_map, h]
  rfl

-- ---------------------------------------------------------------------------
-- An ATTACH that is let through
-- ---------------------------------------------------------------------------

/-- A writer ATTACH to a leaf that is free, or one's own, takes the claim and the
role; all that is left is to show the leaf to a protocol-2 client. -/
theorem attach_exec {d : Daemon} (idx : Nat) {sessionId : Option UInt64} {id : SessionId}
    {s : Session} {protocol : UInt8} (hprotocol : Frame.protocolSupported protocol = true)
    (hid : d.resolveAttach sessionId = some id) (hs : d.session id = some s)
    (hfree : s.attached = false ∨ d.leafOf idx = some id) (m : Moment) (generation : UInt64) :
    ∃ k, (dispatchFrame m idx (.attach generation sessionId protocol false)).exec d =
        (if protocol = protocol2 then emitCheckpoint idx id else pure ()).exec
          ((d.setKernel k).modifyClient idx fun c =>
            c.attachTo id false protocol s.pty.taken.length) ∧
      k.session = update d.session id (some (s.attach m generation false)) := by
  have hattached : d.attached id = s.attached := Kernel.attached_eq hs
  obtain ⟨hr, hsession⟩ := Kernel.onFrame_spec hs m (.attach generation sessionId protocol false)
  rw [Session.onFrame_attach] at hr hsession
  refine ⟨((Kernel.onFrame m id (.attach generation sessionId protocol false)).exec
    d.kernel).2, ?_, hsession⟩
  have hframe : (onFrame m id (.attach generation sessionId protocol false)).exec d =
      (.ok (), d.setKernel ((Kernel.onFrame m id
        (.attach generation sessionId protocol false)).exec d.kernel).2) := by
    rw [onFrame, Op.exec_bind, Op.exec_attempt, exec_onKernel, hr]
    rfl
  have hafter : ((Kernel.onFrame m id
      (.attach generation sessionId protocol false)).exec d.kernel).2.session id =
        some (s.attach m generation false) := by rw [hsession, update_self]
  change (dispatchAttach m idx generation sessionId protocol false).exec d = _
  rw [dispatchAttach, Op.exec_get_bind, if_neg (by simp [hprotocol]), hid]
  dsimp only
  rw [if_neg, acceptAttach, Op.exec_bind_ok hframe, Op.exec_get_bind, if_pos]
  · rw [Op.exec_modify_bind, taken_attach d hafter]
    rfl
  · exact (Kernel.attached_eq hafter).trans (attach_attached s m generation)
  · rcases hfree with hfree | hmine
    · simp [hattached, hfree]
    · simp [hmine]

theorem attach_writer_exec {d : Daemon} (idx : Nat) {sessionId : Option UInt64} {id : SessionId}
    {s : Session} (hid : d.resolveAttach sessionId = some id) (hs : d.session id = some s)
    (hfree : s.attached = false ∨ d.leafOf idx = some id) (m : Moment) (generation : UInt64) :
    ∃ k, (dispatchFrame m idx (.attach generation sessionId protocolVersion false)).exec d =
        (.ok (), (d.setKernel k).modifyClient idx fun c =>
          c.attachTo id false protocolVersion s.pty.taken.length) ∧
      k.session = update d.session id (some (s.attach m generation false)) :=
  attach_exec idx rfl hid hs hfree m generation

/-- What a leaf looks like is shown without touching sessions or roles. -/
theorem emitCheckpoint_keeps (idx : Nat) (id : SessionId) (S : Sessions)
    (R : List (Role SessionId)) :
    Op.Keeps (fun d : Daemon => d.session = S ∧ d.clients.map Client.role = R)
      (emitCheckpoint idx id) := by
  let I (d : Daemon) : Prop := d.session = S ∧ d.clients.map Client.role = R
  have hsend : ∀ q, Op.Keeps I (sendTo idx q) := by
    intro q
    refine Op.Keeps.get_bind fun d hd => ?_
    cases hc : d.clients[idx]? with
    | none => exact hd
    | some c =>
      dsimp only
      rw [Op.exec_modify_bind]
      refine ⟨hd.1, ?_⟩
      have hrole : ((Client.send q).exec c).2.role = c.role := by
        rw [Client.exec_send]
        cases q.frame.encode with
        | ok bytes => rfl
        | error e => rfl
      rw [← hd.2]
      change (d.clients.modify idx _).map _ = _
      rw [modify_of_get hc]
      exact roles_set hc hrole
  have hkeeps : Op.Keeps I (emitCheckpoint idx id) := by
    refine Op.Keeps.bind Op.Keeps.get fun d => ?_
    split
    case h_1 => exact Op.Keeps.pure _
    case h_2 s _ =>
      refine Op.Keeps.bind Op.Keeps.get fun d => Op.Keeps.bind ?_ fun _ => ?_
      · unfold setChipOr
        split
        case h_1 => exact Op.Keeps.modify fun d hd => hd
        case h_2 => exact Op.Keeps.throw _
      · refine Op.Keeps.bind Op.Keeps.get fun d => ?_
        exact Op.Keeps.bind (Op.Keeps.modify fun d hd => hd) fun _ => hsend _
  exact hkeeps

-- ---------------------------------------------------------------------------
-- One writer
-- ---------------------------------------------------------------------------

/-- A DATA or a RESIZE of the connection at `idx` can change the leaf. -/
def Applies (d : Daemon) (idx : Nat) (id : SessionId) : Prop :=
  ∃ m f, isInput f = true ∧ ((dispatchFrame m idx f).exec d).2.session id ≠ d.session id

theorem isInput_not_attach {f : Frame} (h : isInput f = true) : f.isAttach = false := by
  cases f with
  | attach => cases h
  | data | credit | resize | exit | refused | checkpoint | delta | resyncRequest => rfl

/-- Only a leaf's writers can apply input to it. -/
theorem Applies.isWriter {d : Daemon} {idx : Nat} {id : SessionId} (h : Applies d idx id) :
    ∃ c, d.clients[idx]? = some c ∧ c.isWriter id = true := by
  obtain ⟨m, f, hf, hchange⟩ := h
  rw [exec_dispatchFrame (isInput_not_attach hf)] at hchange
  cases hleaf : d.leafOf idx with
  | none =>
    rw [hleaf] at hchange
    refine absurd ?_ hchange
    change (d.dropClient idx).session id = d.session id
    cases hc : d.clients[idx]? with
    | none => rw [dropClient_of_none hc]
    | some c =>
      have hnone : c.leaf = none := by simpa [leafOf, hc] using hleaf
      rw [session_dropClient hc, leave_none_map hnone]
  | some j =>
    rw [hleaf] at hchange
    dsimp only at hchange
    obtain ⟨c, hc, hcleaf⟩ := leafOf_eq_some.mp hleaf
    split at hchange
    case isTrue => exact absurd rfl hchange
    case isFalse hobserves =>
      rw [exec_dispatchOwn] at hchange
      have hid : id = j := by
        by_contra hne
        rw [onFrame_others m f _ hne] at hchange
        exact hchange rfl
      have hobserve : c.observe = false := by
        simpa [observes, hc, hf] using hobserves
      exact ⟨c, hc, by simp [Client.isWriter, hid, hcleaf, hobserve]⟩

/-- No connection that observes a held leaf asks to write it. -/
def NoUpgrade (d : Daemon) (a : Act) : Prop :=
  ∀ slot id, Asks d a slot id false → d.attached id → d.observes slot = false

theorem NoUpgrade.holder {d : Daemon} {a : Act} (h : NoUpgrade d a) {slot : Nat} {id : SessionId}
    (hasks : Asks d a slot id false) (hheld : d.attached id) :
    (ledger d).roles[slot]? = some (.holder id) := by
  have hobserves := h slot id hasks hheld
  obtain ⟨_, _, _, _, _, _, _, hmine⟩ := hasks
  obtain ⟨c, hc, hleaf⟩ := leafOf_eq_some.mp (hmine hheld Bool.false_ne_true)
  have hobserve : c.observe = false := by simpa [observes, hc] using hobserves
  rw [roles_get hc]
  exact congrArg some (role_eq_holder.mpr (by simp [Client.isWriter, hleaf, hobserve]))

theorem atMostOneHolder_runs {d₀ d : Daemon} (h₀ : Ledger.AtMostOneHolder (ledger d₀))
    (hrun : Runs Act.Takes NoUpgrade d₀ d) : Ledger.AtMostOneHolder (ledger d) := by
  refine hrun.invariant (I := fun d => Ledger.AtMostOneHolder (ledger d)) ?_ h₀
  intro d a d' hd hguard htakes
  rcases htakes.moves with hsame | ⟨mv, hmoved, hexplains⟩
  · rwa [hsame]
  · rw [hmoved]
    refine hd.apply mv fun slot id hmv hheld => ?_
    rw [hmv] at hexplains
    exact hguard.holder hexplains hheld

theorem writer_unique {d : Daemon} (h : Ledger.AtMostOneHolder (ledger d)) {id : SessionId}
    {i j : Nat} {c c' : Client} (hi : d.clients[i]? = some c) (hj : d.clients[j]? = some c')
    (hc : c.isWriter id = true) (hc' : c'.isWriter id = true) : i = j := by
  have hle := Nat.le_trans (h id) (Bool.toNat_le _)
  rw [count_holder] at hle
  exact unique_of_countP_le hle hi hj hc hc'

theorem writer_attached {d : Daemon} (h : Ledger.AtMostOneHolder (ledger d)) {id : SessionId}
    {i : Nat} {c : Client} (hi : d.clients[i]? = some c) (hc : c.isWriter id = true) :
    d.attached id = true := by
  have hpos : 0 < (ledger d).roles.count (.holder id) := by
    rw [count_holder]
    exact List.countP_pos_iff.mpr ⟨c, List.mem_of_getElem? hi, hc⟩
  have hle := h id
  rw [attached_eq] at hle
  cases hheld : d.attached id with
  | true => rfl
  | false =>
    rw [hheld] at hle
    simp only [Bool.toNat_false] at hle
    omega

/-- In every run in which no observer of a held leaf asks to write it, at most
one connection can apply input to a leaf, and who asks for a leaf that another
connection writes is refused in its own outbox, with nothing else changed. -/
theorem one_writer {turns : List Turn} {size : Winsize} {isWorker : Bool} {d₀ d : Daemon}
    (hbind : Daemon.bind (.spawn size turns) size isWorker = .ok d₀)
    (hrun : Runs Act.Takes NoUpgrade d₀ d) :
    (∀ id i j, Applies d i id → Applies d j id → i = j) ∧
      ∀ m idx generation sessionId protocol id holder c w,
        d.clients[idx]? = some c → d.clients[holder]? = some w → holder ≠ idx →
        w.isWriter id = true → d.resolveAttach sessionId = some id → c.isObserver id = false →
        (dispatchFrame m idx (.attach generation sessionId protocol false)).exec d =
          (.ok (), d.modifyClient idx fun c =>
            if Frame.protocolSupported protocol then
              c.push ⟨.refused .alreadyAttached, .control⟩ (Frame.refused .alreadyAttached).wire
            else
              c.push ⟨.refused .protocolMismatch, .control⟩
                (Frame.refused .protocolMismatch).wire) := by
  have hone := atMostOneHolder_runs (ledger_bind hbind).atMostOneHolder hrun
  refine ⟨?_, ?_⟩
  · intro id i j hi hj
    obtain ⟨c, hc, hwriter⟩ := hi.isWriter
    obtain ⟨c', hc', hwriter'⟩ := hj.isWriter
    exact writer_unique hone hc hc' hwriter hwriter'
  · intro m idx generation sessionId protocol id holder c w hc hw hne hwriter hid hobserver
    have hheld : d.attached id = true := writer_attached hone hw hwriter
    have hmine : d.leafOf idx ≠ some id := by
      intro hleaf
      obtain ⟨c', hc', hcleaf⟩ := leafOf_eq_some.mp hleaf
      obtain rfl := Option.some.inj (hc.symm.trans hc')
      have hcwriter : c.isWriter id = true := by
        have hobserve : c.observe = false := by simpa [Client.isObserver, hcleaf] using hobserver
        simp [Client.isWriter, hcleaf, hobserve]
      exact hne (writer_unique hone hw hc hwriter hcwriter)
    change (dispatchAttach m idx generation sessionId protocol false).exec d = _
    rw [dispatchAttach, Op.exec_get_bind]
    cases hprotocol : Frame.protocolSupported protocol with
    | false => exact refuse_exec hc .protocolMismatch
    | true =>
      rw [if_neg (by simp), hid]
      dsimp only
      rw [if_pos (by simp [hheld, hmine])]
      exact refuse_exec hc .alreadyAttached

/-- Two connections, of which the first asks to write the default leaf, as a run
for any condition that lets them. -/
theorem attach_run {G : Daemon → Act → Prop} (haccept : ∀ d stream, G d (.accept stream))
    (hattach : ∀ d, (∀ id, d.attached id = false) →
      d.clients = [.new (.of [] [] []), .new (.of [] [] [])] →
      G d (.frame ⟨0, 3600⟩ 0 (.attach 1 none protocolVersion false))) :
    ∃ d₀ d, Daemon.bind (.spawn ⟨1, 1, 0, 0⟩ []) ⟨1, 1, 0, 0⟩ false = .ok d₀ ∧
      Runs Act.Takes G d₀ d ∧
      d.clients = [(Client.new (.of [] [] [])).attachTo d.defaultId false protocolVersion 0,
        .new (.of [] [] [])] := by
  obtain ⟨d₀, hbind⟩ := exists_bind [] false
  obtain ⟨hclients, -, hsession⟩ := bind_ok hbind
  let d₂ := (d₀.acceptClient (.of [] [] [])).acceptClient (.of [] [] [])
  have hs : d₂.session d₂.defaultId = some (.spawn (.spawn ⟨1, 1, 0, 0⟩ []) false ⟨1, 1, 0, 0⟩) :=
    (congrFun hsession d₀.defaultId).trans (update_self ..)
  have hfree : ∀ id, d₂.attached id = false := by
    intro id
    by_cases hid : id = d₂.defaultId
    · rw [hid]
      exact Kernel.attached_eq hs
    · have hno : d₂.session id = none := (congrFun hsession id).trans (update_of_ne hid _ _)
      exact congrArg (fun s => Option.any Session.attached s) hno
  have hlist : d₂.clients = [.new (.of [] [] []), .new (.of [] [] [])] := by
    change d₀.clients ++ _ ++ _ = _
    rw [hclients]
    rfl
  have hid : d₂.resolveAttach none = some d₂.defaultId := rfl
  obtain ⟨k, hrun, -⟩ := attach_writer_exec 0 hid hs (.inl rfl) ⟨0, 3600⟩ 1
  refine ⟨d₀, (d₂.setKernel k).modifyClient 0 fun c =>
    c.attachTo d₂.defaultId false protocolVersion 0, hbind, ?_, ?_⟩
  · exact .tail (.tail (.single ⟨.accept (.of [] [] []), haccept _ _, trivial, rfl⟩)
      ⟨.accept (.of [] [] []), haccept _ _, trivial, rfl⟩)
      ⟨.frame ⟨0, 3600⟩ 0 (.attach 1 none protocolVersion false), hattach d₂ hfree hlist, trivial,
        hrun⟩
  · rw [clients_modifyClient, clients_setKernel, hlist]
    rfl

theorem not_asks_accept {d : Daemon} {stream : Stream} {slot : Nat} {id : SessionId}
    {observe : Bool} : ¬ Asks d (.accept stream) slot id observe := by
  rintro ⟨_, _, _, _, h, _⟩
  cases h

theorem one_writer_refused :
    ∃ d₀ d, Daemon.bind (.spawn ⟨1, 1, 0, 0⟩ []) ⟨1, 1, 0, 0⟩ false = .ok d₀ ∧
      Runs Act.Takes NoUpgrade d₀ d ∧ (∀ id i j, Applies d i id → Applies d j id → i = j) ∧
      (dispatchFrame ⟨0, 3600⟩ 1 (.attach 2 none protocolVersion false)).exec d =
        (.ok (), d.modifyClient 1 fun c =>
          c.push ⟨.refused .alreadyAttached, .control⟩ (Frame.refused .alreadyAttached).wire) := by
  obtain ⟨d₀, d, hbind, hrun, hclients⟩ := attach_run (G := NoUpgrade)
    (fun d stream slot id hasks => absurd hasks not_asks_accept)
    (fun d hfree _ slot id _ hheld => by
      rw [hfree id] at hheld
      cases hheld)
  obtain ⟨happlies, hrefused⟩ := one_writer hbind hrun
  exact ⟨d₀, d, hbind, hrun, happlies,
    hrefused ⟨0, 3600⟩ 1 2 none protocolVersion d.defaultId 0 _ _ (by rw [hclients]; rfl)
      (by rw [hclients]; rfl) (by decide) (by simp [Client.isWriter, Client.attachTo, Client.setRole]) rfl rfl⟩

/-- An observer of a held leaf that asks to write it becomes a second writer. -/
theorem second_writer :
    ∃ d, after [] ⟨1, 1, 0, 0⟩ false
        [{ Poll.quiet with
            accept := .ok (some (.of [.attach 1 none protocolVersion false] [] [])) },
          { Poll.quiet with
            ready := fun idx => idx = 0
            accept := .ok (some (.of
              [.attach 2 none protocolVersion true, .attach 2 none protocolVersion false] [] [])) },
          { Poll.quiet with ready := fun idx => idx = 1 }] = .ok d ∧
      Applies d 0 ⟨1⟩ ∧ Applies d 1 ⟨1⟩ := by
  let moves (d : Daemon) (idx : Nat) : Bool :=
    ((dispatchFrame ⟨0, 3600⟩ idx (.resize 2 2 0 0)).exec d).2.session ⟨1⟩ ≠ d.session ⟨1⟩
  refine exists_after (p := fun d => moves d 0 && moves d 1) (by decide +kernel) fun d hmoves => ?_
  rw [Bool.and_eq_true, decide_eq_true_eq, decide_eq_true_eq] at hmoves
  exact ⟨⟨⟨0, 3600⟩, .resize 2 2 0 0, rfl, hmoves.1⟩, ⟨⟨0, 3600⟩, .resize 2 2 0 0, rfl, hmoves.2⟩⟩

-- ---------------------------------------------------------------------------
-- Claims and connections agree
-- ---------------------------------------------------------------------------

/-- An ATTACH is let through only to a connection that has no leaf yet, or to
the writer it makes again; and the count of observers has room. -/
def FirstAttach (d : Daemon) (a : Act) : Prop :=
  ∀ slot id observe, Asks d a slot id observe → ∃ c, d.clients[slot]? = some c ∧
    ((c.leaf = none ∧ (observe = true → (claim (d.session id)).2 < u32Max)) ∨
      (c.isWriter id = true ∧ observe = false))

theorem exact_runs {d₀ d : Daemon} (h₀ : Ledger.Exact (ledger d₀))
    (hrun : Runs Act.Takes FirstAttach d₀ d) : Ledger.Exact (ledger d) := by
  refine hrun.invariant (I := fun d => Ledger.Exact (ledger d)) ?_ h₀
  intro d a d' hd hguard htakes
  rcases htakes.moves with hsame | ⟨mv, hmoved, hexplains⟩
  · rwa [hsame]
  · rw [hmoved]
    refine hd.apply mv ?_ ?_
    · rintro slot id rfl
      obtain ⟨c, hc, ⟨hleaf, -⟩ | ⟨hwriter, -⟩⟩ := hguard slot id false hexplains
      · refine .inl ⟨?_, ?_⟩
        · rw [roles_get hc]
          exact congrArg some (role_eq_idle.mpr hleaf)
        · obtain ⟨_, _, _, _, _, _, _, hmine⟩ := hexplains
          cases hheld : d.attached id with
          | false => exact hheld
          | true =>
            obtain ⟨c', hc', hleaf'⟩ := leafOf_eq_some.mp (hmine hheld Bool.false_ne_true)
            obtain rfl := Option.some.inj (hc.symm.trans hc')
            rw [hleaf] at hleaf'
            cases hleaf'
      · rw [roles_get hc]
        exact .inr (congrArg some (role_eq_holder.mpr hwriter))
    · rintro slot id rfl
      obtain ⟨c, hc, ⟨hleaf, hroom⟩ | ⟨-, hfalse⟩⟩ := hguard slot id true hexplains
      · refine ⟨?_, hroom rfl⟩
        rw [roles_get hc]
        exact congrArg some (role_eq_idle.mpr hleaf)
      · cases hfalse

/-- A lone connection that asks to write a free leaf gets it. -/
theorem attach_lone {d : Daemon} (hclients : d.clients = []) {sessionId : Option UInt64}
    {id : SessionId} {protocol : UInt8} (hprotocol : Frame.protocolSupported protocol = true)
    (hid : d.resolveAttach sessionId = some id) (hs : (d.session id).isSome)
    (hfree : d.attached id = false) (stream : Stream) (m : Moment) (generation : UInt64) :
    ∃ c s, ((dispatchFrame m 0 (.attach generation sessionId protocol false)).exec
        (d.acceptClient stream)).2.clients = [c] ∧ c.isWriter id = true ∧
      ((dispatchFrame m 0 (.attach generation sessionId protocol false)).exec
        (d.acceptClient stream)).2.session id = some s ∧
      s.attachGeneration = some generation := by
  obtain ⟨s, hs⟩ := Option.isSome_iff_exists.mp hs
  have hfree' : s.attached = false := (Kernel.attached_eq hs).symm.trans hfree
  obtain ⟨k, hrun, hk⟩ := attach_exec (d := d.acceptClient stream) 0 hprotocol hid hs
    (.inl hfree') m generation
  have hkeeps : Op.Keeps (fun d : Daemon => d.session = k.session ∧
      d.clients.map Client.role = [.holder id])
      (if protocol = protocol2 then emitCheckpoint 0 id else pure ()) := by
    split
    case isTrue => exact emitCheckpoint_keeps 0 id _ _
    case isFalse => exact Op.Keeps.pure _
  have hstart : (((d.acceptClient stream).setKernel k).modifyClient 0 fun c =>
      c.attachTo id false protocol s.pty.taken.length).clients.map Client.role = [.holder id] := by
    simp [acceptClient, hclients, role_attachTo]
  rw [hrun]
  obtain ⟨hsession, hroles⟩ := hkeeps _ ⟨rfl, hstart⟩
  obtain ⟨c, hc, hrole⟩ := List.map_eq_singleton_iff.mp hroles
  refine ⟨c, s.attach m generation false, hc, role_eq_holder.mp hrole, ?_, ?_⟩
  · rw [hsession, hk, update_self]
  · rw [Session.attach, if_neg Bool.false_ne_true, hfree', if_neg Bool.false_ne_true]
    rfl

/-- In every run in which an ATTACH is let through only to connections without a
leaf, the sessions' claims and counts are those of the connections; once all of
them are gone, every leaf is free and can be claimed again. -/
theorem claims_match {turns : List Turn} {size : Winsize} {isWorker : Bool} {d₀ d : Daemon}
    (hbind : Daemon.bind (.spawn size turns) size isWorker = .ok d₀)
    (hrun : Runs Act.Takes FirstAttach d₀ d) :
    (∀ id s, d.session id = some s →
      (s.attached = true ↔ d.clients.countP (fun c => c.isWriter id) = 1) ∧
        s.observers = d.clients.countP fun c => c.isObserver id) ∧
      (d.clients = [] → ∀ id s, d.session id = some s →
        s.attached = false ∧ s.observers = 0 ∧
          ∀ stream m generation sessionId protocol,
            Frame.protocolSupported protocol = true → d.resolveAttach sessionId = some id →
            ∃ c t, ((dispatchFrame m 0 (.attach generation sessionId protocol false)).exec
                (d.acceptClient stream)).2.clients = [c] ∧ c.isWriter id = true ∧
              ((dispatchFrame m 0 (.attach generation sessionId protocol false)).exec
                (d.acceptClient stream)).2.session id = some t ∧
              t.attachGeneration = some generation) := by
  have hexact := exact_runs (ledger_bind hbind) hrun
  have hclaim : ∀ id s, d.session id = some s →
      (ledger d).held id = s.attached ∧ (ledger d).watchers id = s.observers := by
    intro id s hs
    refine ⟨Kernel.attached_eq hs, ?_⟩
    change ((d.session id).map _).getD 0 = _
    rw [hs]
    rfl
  refine ⟨fun id s hs => ?_, fun hclients id s hs => ?_⟩
  · obtain ⟨hholders, hwatchers⟩ := hexact id
    obtain ⟨hheld, hobservers⟩ := hclaim id s hs
    rw [count_holder, hheld] at hholders
    rw [count_watcher, hobservers] at hwatchers
    refine ⟨?_, hwatchers.symm⟩
    rw [hholders]
    cases s.attached with
    | true => simp
    | false => simp
  · have hroles : (ledger d).roles = [] := by
      rw [ledger, ledgerOf, hclients]
      rfl
    obtain ⟨hheld, hobservers⟩ := hclaim id s hs
    obtain ⟨hfree, hnone⟩ := hexact.of_empty hroles id
    refine ⟨hheld.symm.trans hfree, hobservers.symm.trans hnone, ?_⟩
    intro stream m generation sessionId protocol hprotocol hid
    exact attach_lone hclients hprotocol hid (by rw [hs]; rfl) hfree stream m generation

theorem claims_match_writer :
    ∃ d₀ d, Daemon.bind (.spawn ⟨1, 1, 0, 0⟩ []) ⟨1, 1, 0, 0⟩ false = .ok d₀ ∧
      Runs Act.Takes FirstAttach d₀ d ∧ ∀ id s, d.session id = some s →
        (s.attached = true ↔ d.clients.countP (fun c => c.isWriter id) = 1) ∧
          s.observers = d.clients.countP fun c => c.isObserver id := by
  obtain ⟨d₀, d, hbind, hrun, hclients⟩ := attach_run (G := FirstAttach)
    (fun d stream slot id observe hasks => absurd hasks not_asks_accept)
    (fun d _ hclients slot id observe hasks => by
      obtain ⟨_, _, _, _, hframe, _⟩ := hasks
      cases hframe
      exact ⟨_, by rw [hclients]; rfl, .inl ⟨rfl, fun h => by cases h⟩⟩)
  exact ⟨d₀, d, hbind, hrun, (claims_match hbind hrun).1⟩

/-- A writer that turns observer leaves its claim behind when it goes. -/
theorem claim_left_behind :
    ∃ d, after [] ⟨1, 1, 0, 0⟩ false
        [{ Poll.quiet with
            accept := .ok (some (.of
              [.attach 1 none protocolVersion false, .attach 1 none protocolVersion true]
              [.eof] [])) },
          { Poll.quiet with ready := fun idx => idx = 0 },
          { Poll.quiet with ready := fun idx => idx = 0 }] = .ok d ∧
      d.clients = [] ∧ ∃ s, d.session ⟨1⟩ = some s ∧ s.attached = true := by
  refine exists_after (p := fun d => d.clients = [] ∧ d.attached ⟨1⟩ = true) (by decide +kernel)
    fun d h => ?_
  obtain ⟨hclients, hheld⟩ := of_decide_eq_true h
  exact ⟨hclients, attached_iff.mp hheld⟩

end Rill.Daemon
