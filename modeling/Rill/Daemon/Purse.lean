import Rill.Daemon.Accounts
import Rill.Daemon.Written

/-!
# The session's account

Of a session, whether it is held, its credit and the output it has queued; and what
the acts of a daemon whose clients are all protocol-1 writers do to it.
-/

namespace Rill.Daemon

open Lib Attach Kernel Function

structure Purse where
  held : Bool
  credit : Nat
  live : List UInt8
  deriving DecidableEq

def purseOf : Option Session → Purse
  | none => ⟨false, 0, []⟩
  | some s => ⟨s.attached, s.credit, live s.outbound⟩

def purses (S : Sessions) (id : SessionId) : Purse := purseOf (S id)

theorem purses_update (S : Sessions) (id : SessionId) (t : Session) :
    purses (update S id (some t)) = update (purses S) id (purseOf (some t)) := by
  funext j
  by_cases hj : j = id
  · rw [hj, purses, update_self, update_self]
  · rw [purses, update_of_ne hj, update_of_ne hj, purses]

theorem purses_same {S : Sessions} {id : SessionId} {s t : Session} (hs : S id = some s)
    (h : purseOf (some t) = purseOf (some s)) : purses (update S id (some t)) = purses S := by
  rw [purses_update, h, ← hs]
  exact update_eq_self id (purses S)

theorem purseOf_steady {s t : Session} (h : s.Steady t) (hcredit : t.credit = s.credit) :
    purseOf (some t) = purseOf (some s) := by
  rw [purseOf, purseOf, Session.attached, Session.attached, h.attachGeneration, hcredit, h.outbound]

/-- All clients are protocol-1 writers, and the daemon is no worker. -/
structure Plain (d : Daemon) : Prop where
  isWorker : d.isWorker = false
  writes : ∀ c ∈ d.clients, c.observe = false
  protocol : ∀ c ∈ d.clients, c.protocol ≠ protocol2

theorem Plain.hasProtocol2 {d : Daemon} (h : Plain d) (id : SessionId) :
    Daemon.hasProtocol2 d id = false := by
  rw [Daemon.hasProtocol2, List.any_eq_false]
  intro c hc hboth
  simp only [Bool.and_eq_true, decide_eq_true_eq] at hboth
  exact h.protocol c hc hboth.2

theorem Plain.due {d : Daemon} (h : Plain d) {c : Client} (hc : c ∈ d.clients) (qs : List Queued) :
    c.due qs = qs := by
  refine List.filter_eq_self.mpr fun q _ => ?_
  simp [h.protocol c hc]

def LiveIsData (S : Sessions) : Prop :=
  ∀ id s, S id = some s → ∀ q ∈ s.outbound, ∀ start, q.origin = .live start → q.frame.isData

theorem liveIsData_runs {G : Daemon → Act → Prop} {turns : List Turn} {size : Winsize}
    {isWorker : Bool} {d₀ d : Daemon} (hbind : Daemon.bind (.spawn size turns) size isWorker = .ok d₀)
    (hrun : Runs Act.Takes G d₀ d) : LiveIsData d.session := by
  intro id s hs q hq start horigin
  cases queueable_runs hbind hrun hs q hq with
  | live => rfl
  | exit | refused | repaint => cases horigin

theorem live_kept {S : Sessions} (h : LiveIsData S) {id : SessionId} {s : Session}
    (hs : S id = some s) : live (s.outbound.filter fun q => !q.frame.isData) = [] := by
  refine live_eq_nil fun q hq start horigin => ?_
  obtain ⟨hmem, hdata⟩ := List.mem_filter.mp hq
  rw [h id s hs q hmem start horigin] at hdata
  cases hdata

-- ---------------------------------------------------------------------------
-- Acts apart from the connections
-- ---------------------------------------------------------------------------

theorem spawn_purses {turns : List Turn} {d d' : Daemon}
    (h : (spawnTabLeaf (.ok turns)).exec d = (.ok (), d')) :
    d'.clients = d.clients ∧ purses d'.session = purses d.session := by
  rw [spawnTabLeaf, Op.exec_bind, Op.exec_mapError, Op.exec_lift] at h
  obtain ⟨_, rfl⟩ := Prod.mk.inj h
  refine ⟨rfl, ?_⟩
  rcases d.kernel.session_spawnLeaf (.spawn (.spawn d.size turns) false d.size) with
    hsame | ⟨id, hid, hnew⟩
  · rw [session_setKernel, hsame]
    rfl
  · have hid' : d.session id = none := hid
    rw [session_setKernel, hnew, purses_update]
    exact update_eq_iff.mpr ⟨by rw [purses, hid']; rfl, fun _ _ => rfl⟩

theorem reap_credit (k : Nat) (m : Moment) :
    Op.Keeps (fun s : Session => s.credit = k) (Session.reap m) := by
  refine Op.Keeps.bind (Op.Keeps.modify fun s h => h) fun _ => ?_
  refine Op.Keeps.bind Op.Keeps.get fun s => Op.Keeps.ite (fun _ => Op.Keeps.pure _) fun _ => ?_
  refine Op.Keeps.bind (Op.Keeps.on fun s h => h) fun status => ?_
  cases status with
  | none => exact Op.Keeps.pure _
  | some status => exact Op.Keeps.bind (Op.Keeps.modify fun s h => h) fun _ => Op.Keeps.pure _

theorem reap_purses {m : Moment} {id : SessionId} {d d' : Daemon}
    (h : (onKernel (Kernel.reap m id)).exec d = (.ok (), d')) :
    d'.clients = d.clients ∧ purses d'.session = purses d.session := by
  rw [exec_onKernel] at h
  obtain ⟨hok, rfl⟩ := Prod.mk.inj h
  refine ⟨rfl, ?_⟩
  cases hs : d.session id with
  | none =>
    rw [Kernel.reap_none hs] at hok
    cases hok
  | some s =>
    obtain ⟨hr, hsession⟩ := Kernel.reap_spec hs m
    have hcredit := reap_credit s.credit m s rfl
    rw [session_setKernel, hsession]
    rw [hr] at hok
    refine purses_same hs ?_
    rcases hrun : (Session.reap m).exec s with ⟨e | seen, t⟩
    · rw [hrun] at hok
      cases hok
    · rw [hrun] at hcredit
      rcases Session.reap_ok hrun with ⟨-, hsteady⟩ | ⟨u, status, rfl, hsteady, -⟩
      · exact purseOf_steady hsteady hcredit
      · obtain ⟨qs, hqueue, hqs⟩ := observeExit_queue u status
        have hlive : live (u.observeExit status).outbound = live u.outbound := by
          rw [hqueue, live_append, live_control hqs, List.append_nil]
        rw [← purseOf_steady hsteady hcredit, purseOf, purseOf, hlive]
        rfl

theorem resync_purses {id : SessionId} {d d' : Daemon} (h : (resyncLeaf id).exec d = (.ok (), d')) :
    d'.clients = d.clients ∧ purses d'.session = purses d.session := by
  cases hs : d.session id with
  | none =>
    rw [resyncLeaf, Op.exec_bind, exec_onLeaf_none hs] at h
    obtain ⟨_, rfl⟩ := Prod.mk.inj h
    exact ⟨rfl, rfl⟩
  | some s =>
    have hset := session_setSession hs s.takeResyncHistory.2
    have hsame : purses (d.setSession id s.takeResyncHistory.2).session = purses d.session := by
      rw [hset]
      exact purses_same hs rfl
    by_cases hrepaint : s.resyncPending = true ∧ hasProtocol2 d id = false
    · obtain ⟨bytes, chip, -, rfl⟩ := resyncLeaf_repaint hs hrepaint.1 hrepaint.2 h
      have hs' : ((d.setSession id s.takeResyncHistory.2).setChip chip).session id =
          some s.takeResyncHistory.2 := by
        rw [session_setChip, hset, update_self]
      refine ⟨rfl, ?_⟩
      rw [session_setSession hs']
      refine (purses_same hs' ?_).trans hsame
      have hlive : live (s.takeResyncHistory.2.enqueueOutbound
          ⟨.data bytes, .repaint s.pty.taken.length⟩).outbound = live s.outbound := by
        change live (s.outbound ++ [_]) = _
        have hnew : ∀ start, Origin.repaint s.pty.taken.length ≠ .live start := by
          rintro start hstart
          cases hstart
        rw [live_append, live_eq_nil (forall_not_live hnew), List.append_nil]
      rw [purseOf, purseOf, hlive]
      rfl
    · have hskip : s.resyncPending = false ∨ hasProtocol2 d id = true := by
        rwa [not_and_or, Bool.not_eq_true, Bool.not_eq_false] at hrepaint
      obtain rfl := resyncLeaf_skip hs hskip h
      exact ⟨rfl, hsame⟩

/-- Output is charged to the session's credit, and queued. -/
theorem drain_purses {id : SessionId} {more : Bool} {d d' : Daemon} (hplain : Plain d)
    (h : (drainOnce id).exec d = (.ok more, d')) :
    d'.clients = d.clients ∧
      (purses d'.session = purses d.session ∨
        ∃ got : List UInt8, got ≠ [] ∧ got.length ≤ (purses d.session id).credit ∧
          ((purses d.session id).held = true →
            purses d'.session = update (purses d.session) id
              ⟨true, (purses d.session id).credit - got.length,
                (purses d.session id).live ++ got⟩)) := by
  have hpath : (hasProtocol2 d id || d.isWorker) = false := by
    rw [hplain.hasProtocol2, hplain.isWorker]
    rfl
  rw [drainOnce, Op.exec_get_bind, hpath, if_neg Bool.false_ne_true, drainToQueue] at h
  cases hs : d.session id with
  | none =>
    rw [Op.exec_bind, exec_onLeaf_none hs] at h
    obtain ⟨_, rfl⟩ := Prod.mk.inj h
    exact ⟨rfl, .inl rfl⟩
  | some s =>
    rw [Op.exec_bind, exec_onLeaf hs, Op.exec_get_bind] at h
    split at h
    case h_2 => cases h
    case h_1 n d₁ hrun =>
      obtain ⟨-, rfl⟩ := Prod.mk.inj h
      obtain ⟨hn, rfl⟩ := Prod.mk.inj hrun
      refine ⟨rfl, ?_⟩
      rw [session_setSession hs]
      split
      case isFalse => exact .inl (purses_same hs rfl)
      case isTrue =>
        rcases Session.onPtyReadable_spec s with ⟨r, t, hread, hsteady, hcredit, -⟩ |
          ⟨got, p, hread, hgot, hlen, -⟩
        · rw [hread]
          exact .inl (purses_same hs (purseOf_steady hsteady hcredit))
        · rw [hread]
          have hpurse : purses d.session id = ⟨s.attached, s.credit, live s.outbound⟩ := by
            rw [purses, hs]
            rfl
          refine .inr ⟨got, hgot, ?_, fun hheld => ?_⟩
          · rw [hpurse]
            exact Nat.le_trans hlen (Nat.min_le_left _ _)
          · rw [hpurse] at hheld ⊢
            rw [purses_update]
            congr 1
            have hheld : s.attached = true := hheld
            have hlisten : ({ s with pty := p } : Session).hasListeners = true := by
              change (s.attached || _) = true
              rw [hheld, Bool.true_or]
            have hone : live [⟨.data got, .live s.pty.taken.length⟩] = got := List.append_nil got
            change Purse.mk s.attached (s.credit - got.length)
              (live (if ({ s with pty := p } : Session).hasListeners then _ else _)) = _
            rw [if_pos hlisten, live_append, hone, hheld]

-- ---------------------------------------------------------------------------
-- Connections
-- ---------------------------------------------------------------------------

theorem leave_purses {S : Sessions} (hlive : LiveIsData S) {c : Client} (hwrites : c.observe = false)
    (id : SessionId) :
    purses (fun id => (S id).map (c.leave id)) id =
      if c.leaf = some id then ⟨false, 0, []⟩ else purses S id := by
  rw [purses, purses]
  cases hs : S id with
  | none =>
    split
    case isTrue => rfl
    case isFalse => rfl
  | some s =>
    rw [Option.map_some, Client.leave]
    split
    case isTrue =>
      rw [hwrites, purseOf]
      have hkept := live_kept hlive hs
      change Purse.mk false 0 (live (s.outbound.filter fun q => !q.frame.isData)) = _
      rw [hkept]
    case isFalse => rfl

theorem flushed_purses {d : Daemon} (hlive : LiveIsData d.session) (id : SessionId) :
    purses (flushed d) id = { purses d.session id with live := [] } := by
  rw [purses, purses]
  cases hs : d.session id with
  | none =>
    have hs' : d.kernel.session id = none := hs
    rw [flushed, Kernel.session_takeOutbound, hs']
    rfl
  | some s =>
    rw [flushed_eq hs]
    split
    case isTrue => rfl
    case isFalse =>
      change Purse.mk s.attached s.credit (live (s.outbound.filter fun q => !q.frame.isData)) = _
      rw [live_kept hlive hs]
      rfl

theorem liveIsData_flushed {d : Daemon} (h : LiveIsData d.session) : LiveIsData (flushed d) := by
  intro id s' hs' q hq
  obtain ⟨s, hs, rfl⟩ := flushed_some hs'
  exact h id s hs q ((flushed_sublist d id s).subset hq)

theorem owed_idle {d : Daemon} {c : Client} (hleaf : c.leaf = none) : owed d c = [] := by
  rw [owed, hleaf]
  rfl

theorem owed_live {d : Daemon} (h : Plain d) {c : Client} (hc : c ∈ d.clients) {id : SessionId}
    (hleaf : c.leaf = some id) : live (owed d c) = (purses d.session id).live := by
  rw [owed, h.due hc, hleaf, purses]
  change live (((d.session id).map Session.outbound).getD []) = _
  cases d.session id with
  | none => rfl
  | some s => rfl

/-- The account after a frame. -/
def Purse.top (p : Purse) (f : Frame) : Purse :=
  match f with
  | .credit n => { p with credit := min (p.credit + n.toNat) u64Max }
  | _ => p

theorem Purse.top_held (p : Purse) (f : Frame) : (p.top f).held = p.held := by
  cases f with
  | attach | credit | data | resize | exit | refused | checkpoint | delta | resyncRequest => rfl

theorem own_purses {m : Moment} {idx : Nat} {f : Frame} {c : Client} {id : SessionId} {d d' : Daemon}
    (hf : f.isAttach = false) (hc : d.clients[idx]? = some c) (hleaf : c.leaf = some id)
    (hwrites : c.observe = false) (h : (dispatchFrame m idx f).exec d = (.ok (), d')) :
    d'.clients = d.clients.set idx (creditClient f c) ∧
      purses d'.session = update (purses d.session) id ((purses d.session id).top f) := by
  have hat : d.leafOf idx = some id := leafOf_eq_some.mpr ⟨c, hc, hleaf⟩
  have hinput : (d.observes idx && isInput f) = false := by
    rw [observes, hc, Option.any_some, hwrites, Bool.false_and]
  rw [exec_dispatchFrame hf, hat] at h
  dsimp only at h
  rw [hinput, if_neg Bool.false_ne_true, exec_dispatchOwn] at h
  obtain ⟨s, k, hs, rfl, -, hk⟩ := onFrame_ok h
  have hs : d.session id = some s := hs
  refine ⟨?_, ?_⟩
  · rw [clients_setKernel, clients_modifyClient, modify_of_get hc]
  · have hsteady := Session.onFrame_steady s m hf
    rw [session_setKernel, hk, session_modifyClient, purses_update]
    congr 1
    have hpurse : purses d.session id = ⟨s.attached, s.credit, live s.outbound⟩ := by
      rw [purses, hs]
      rfl
    rw [hpurse, purseOf, Session.onFrame_credit, Session.attached, hsteady.attachGeneration,
      hsteady.outbound]
    cases f with
    | attach => cases hf
    | credit | data | resize | exit | refused | checkpoint | delta | resyncRequest => rfl

theorem dropped_of_none {m : Moment} {idx : Nat} {f : Frame} {d d' : Daemon} (hf : f.isAttach = false)
    (hleaf : d.leafOf idx = none) (h : (dispatchFrame m idx f).exec d = (.ok (), d')) :
    d' = d.dropClient idx := by
  rw [exec_dispatchFrame hf, hleaf] at h
  exact (Prod.mk.inj h).2.symm

/-- A writer's ATTACH is refused, or gives the client a session that nobody holds. -/
theorem attach_purses {m : Moment} {idx : Nat} {generation : UInt64} {sessionId : Option UInt64}
    {c : Client} {d d' : Daemon} (hc : d.clients[idx]? = some c) (hleaf : c.leaf = none)
    (h : (dispatchFrame m idx (.attach generation sessionId protocolVersion false)).exec d =
      (.ok (), d')) :
    (∃ reason, d' = d.setClients (d.clients.set idx
        (c.push ⟨.refused reason, .control⟩ (Frame.refused reason).wire))) ∨
      ∃ id taken, (purses d.session id).held = false ∧
        d'.clients = d.clients.set idx (c.attachTo id false protocolVersion taken) ∧
        purses d'.session = update (purses d.session) id { purses d.session id with held := true } := by
  have hrefuse : ∀ reason, (refuse idx reason).exec d = (.ok (), d') →
      d' = d.setClients (d.clients.set idx
        (c.push ⟨.refused reason, .control⟩ (Frame.refused reason).wire)) := by
    intro reason h
    rw [refuse_exec hc] at h
    obtain ⟨_, rfl⟩ := Prod.mk.inj h
    rw [modifyClient, modify_of_get hc]
  have hnone : d.leafOf idx = none := by
    rw [leafOf, hc]
    exact hleaf
  change (dispatchAttach m idx generation sessionId protocolVersion false).exec d = _ at h
  have hsupported : ¬ (!Frame.protocolSupported protocolVersion) = true := by decide
  rw [dispatchAttach, Op.exec_get_bind, if_neg hsupported] at h
  cases hid : d.resolveAttach sessionId with
  | none =>
    rw [hid] at h
    exact .inl ⟨_, hrefuse _ h⟩
  | some id =>
    rw [hid] at h
    dsimp only at h
    split at h
    case isTrue => exact .inl ⟨_, hrefuse _ h⟩
    case isFalse hfree =>
      obtain ⟨s, k, hs, hk, hrun⟩ := acceptAttach_role h
      have hprotocol : ¬ protocolVersion = protocol2 := by decide
      rw [if_neg hprotocol, if_neg Bool.false_ne_true] at hrun
      obtain ⟨_, rfl⟩ := Prod.mk.inj hrun
      have hattached : s.attached = false := by
        have hsame : d.attached id = s.attached := Kernel.attached_eq hs
        rw [hnone, hsame] at hfree
        simpa using hfree
      have hpurse : purses d.session id = ⟨s.attached, s.credit, live s.outbound⟩ := by
        rw [purses, hs]
        rfl
      refine .inr ⟨id, s.pty.taken.length, by rw [hpurse]; exact hattached, ?_, ?_⟩
      · rw [clients_modifyClient, clients_setKernel, modify_of_get hc]
      · have hlive : live (s.attach m generation false).outbound = live s.outbound := by
          obtain ⟨qs, hqueue, hqs⟩ := attach_queue s m generation false
          rw [hqueue, live_append, live_control hqs, List.append_nil]
        rw [session_modifyClient, session_setKernel, hk, purses_update, hpurse, purseOf,
          attach_attached, Session.attach_credit, hlive]

end Rill.Daemon
