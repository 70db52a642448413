import Mathlib.Data.List.Flatten
import Rill.Daemon.Credit

/-!
# Accounts

Output is charged to the credit of each client it is sent to, or to the one credit
of the session, and the mix of clients on the leaf says which. A grant goes to both.
-/

namespace Rill.Daemon

open Lib Attach Kernel

-- ---------------------------------------------------------------------------
-- Accounts
-- ---------------------------------------------------------------------------

/-- Output goes straight to the outboxes of the leaf's clients. -/
def fansOut (d : Daemon) (id : SessionId) : Bool := hasProtocol2 d id || d.isWorker

/-- What output for a client is charged to: its own credit, or its session's. -/
def account (d : Daemon) (id : SessionId) (c : Client) (s : Session) : Nat :=
  if fansOut d id then c.credit else s.credit

/-- How much of a leaf's output may be read, if there is a bound. -/
def window (d : Daemon) (id : SessionId) (s : Session) : Option Nat :=
  if fansOut d id then protocol1WriterCredit d.clients id else some s.credit

/-- A read is charged to an account that each client of the leaf has filled itself. -/
abbrev CoveredRead (d : Daemon) (id : SessionId) : Prop :=
  ∀ c ∈ d.clients, c.leaf = some id → ∀ s ∈ d.session id,
    account d id c s + (live (c.due s.outbound)).length + (live c.since).length ≤ c.granted

/-- No more is on its way when a client attaches than it has granted. -/
abbrev CoveredAttach (d : Daemon) (idx : Nat) (sessionId : Option UInt64) (protocol : UInt8)
    (observe : Bool) : Prop :=
  ∀ c ∈ d.clients[idx]?, ∀ id ∈ d.resolveAttach sessionId, ∀ s ∈ d.session id,
    protocol ≠ protocol2 →
      c.hasRole id observe protocol = true ∨ (live s.outbound).length ≤ c.granted

/-- A grant to the session's account is of no use to other clients, and one that opens the
leaf's window is its only writer's. -/
abbrev CoveredGrant (d : Daemon) (idx : Nat) (n : UInt32) : Prop :=
  ∀ c ∈ d.clients[idx]?, ∀ id ∈ c.leaf, ∀ s ∈ d.session id,
    if fansOut d id then
      c.isWriter id = true → c.protocol ≠ protocol2 →
        ∀ x ∈ d.clients.eraseIdx idx, ¬ x.isWriter id = true
    else
      (∀ x ∈ d.clients.eraseIdx idx, x.leaf ≠ some id) ∨
        min (s.credit + n.toNat) u64Max = s.credit

def Covered (d : Daemon) : Act → Prop
  | .drain id => CoveredRead d id
  | .frame _ idx (.attach _ sessionId protocol observe) =>
    CoveredAttach d idx sessionId protocol observe
  | .frame _ idx (.credit n) => CoveredGrant d idx n
  | _ => True

instance (d : Daemon) : (a : Act) → Decidable (Covered d a)
  | .drain id => inferInstanceAs (Decidable (CoveredRead d id))
  | .frame _ idx (.attach _ sessionId protocol observe) =>
    inferInstanceAs (Decidable (CoveredAttach d idx sessionId protocol observe))
  | .frame _ idx (.credit n) => inferInstanceAs (Decidable (CoveredGrant d idx n))
  | .frame _ _ (.data _) | .frame _ _ (.resize ..) | .frame _ _ (.exit _) | .frame _ _ (.refused _)
  | .frame _ _ (.checkpoint ..) | .frame _ _ (.delta ..) | .frame _ _ .resyncRequest
  | .accept _ | .spawn _ | .fetch _ | .reap .. | .flush | .resync _ => instDecidableTrue

theorem live_sublist {qs qs' : List Queued} (h : qs.Sublist qs') :
    (live qs).length ≤ (live qs').length := (h.flatMap liveBytes).length_le

theorem due_append (c : Client) (qs qs' : List Queued) :
    c.due (qs ++ qs') = c.due qs ++ c.due qs' := List.filter_append _ _

theorem due_congr {c c' : Client} (h : c'.protocol = c.protocol) (qs : List Queued) :
    c'.due qs = c.due qs := by
  unfold Client.due
  rw [h]

/-- What is queued live is DATA, which a flush does not bring to a protocol-2 client. -/
theorem live_due_protocol2 {s : Session} {c : Client} (h : ∀ q ∈ s.outbound, Queueable s q)
    (hprotocol : c.protocol = protocol2) : live (c.due s.outbound) = [] := by
  refine live_eq_nil fun q hq start horigin => ?_
  obtain ⟨hmem, hdue⟩ := List.mem_filter.mp hq
  cases h q hmem with
  | live =>
    rw [hprotocol] at hdue
    cases hdue
  | exit | refused | repaint => cases horigin

theorem forall_not_live {q : Queued} (h : ∀ start, q.origin ≠ .live start) :
    ∀ k ∈ [q], ∀ start, k.origin ≠ .live start := by
  intro k hk
  obtain rfl := List.mem_singleton.mp hk
  exact h

theorem attach_live (s : Session) (m : Moment) (generation : UInt64) (observe : Bool) (c : Client) :
    live (c.due (s.attach m generation observe).outbound) = live (c.due s.outbound) := by
  obtain ⟨qs, hqueue, hqs⟩ := attach_queue s m generation observe
  have hnew : live (c.due qs) = [] := live_control fun q hq => hqs q (List.mem_of_mem_filter hq)
  rw [hqueue, due_append, live_append, hnew, List.append_nil]

/-- What is on its way to a client of the leaf and what it was sent since its attach, it has
granted. -/
def Granted (c : Client) (s : Session) : Prop :=
  (live (c.due s.outbound)).length + (live c.since).length ≤ c.granted

theorem Granted.quiet {c c' : Client} {s t : Session} (h : Granted c s)
    (hqueue : (live (c'.due t.outbound)).length ≤ (live (c.due s.outbound)).length)
    (hsince : live c'.since = live c.since) (hgranted : c.granted ≤ c'.granted) :
    Granted c' t := by
  unfold Granted at h ⊢
  rw [hsince]
  omega

theorem granted_le_creditClient (f : Frame) (c : Client) :
    c.granted ≤ (creditClient f c).granted := by
  unfold creditClient
  split
  case h_1 => exact Nat.le_add_right _ _
  case h_2 => exact Nat.le_refl _

/-- In every run whose reads and attaches are covered, every client has granted what it was
sent. -/
theorem granted_runs {turns : List Turn} {size : Winsize} {isWorker : Bool} {d₀ d : Daemon}
    (hbind : Daemon.bind (.spawn size turns) size isWorker = .ok d₀)
    (hrun : Runs Act.Takes Covered d₀ d) {id : SessionId} {c : Client} {s : Session}
    (h : On d id c s) : Granted c s := by
  have h₀ := (bind_ok hbind).1
  refine moved_runs (I := fun _ c s => Granted c s) h₀ ?_ hrun id c s h
  intro d a id c' s' hrun hcovered hall hmoved
  have hle : ∀ {c s}, On d id c s → c.attachedAt ≤ c.log.length := attachedAt_runs h₀ hrun
  have hqueue : ∀ {s}, d.session id = some s → ∀ q ∈ s.outbound, Queueable s q :=
    fun hs => queueable_runs hbind hrun hs
  cases hmoved with
  | @keep _ f c _ s _ qs h hsteady hsent hqs =>
    have hprotocol := hsent.protocol.trans (creditClient_role f c).2.2.1
    refine (hall id c s h).quiet (Nat.le_of_eq ?_) ?_ ?_
    · rw [due_congr hprotocol, hsteady.outbound]
    · rw [hsent.since_credit (hle h), live_append, live_refused hqs, List.append_nil]
    · rw [hsent.granted]
      exact granted_le_creditClient f c
  | @joins m idx generation sessionId protocol observe c _ s qs hc hs _ hid _ hshown hsent =>
    have hsince := hsent.since_attachTo fun hrole => hle (.of_hasRole hc hs hrole)
    have hprotocol : c'.protocol = protocol := hsent.protocol
    have hgranted : c'.granted = c.granted := hsent.granted
    by_cases hrole : c.hasRole id observe protocol = true
    · rw [if_pos hrole] at hsince
      obtain ⟨-, -, hproto⟩ := Client.hasRole_iff.mp hrole
      refine (hall id c s (.of_hasRole hc hs hrole)).quiet (Nat.le_of_eq ?_) ?_
        (Nat.le_of_eq hgranted.symm)
      · rw [attach_live, due_congr (hprotocol.trans hproto.symm)]
      · rw [hsince, live_append, hshown.live, List.append_nil]
    · rw [if_neg hrole, List.nil_append] at hsince
      rw [Granted, attach_live, hsince, hshown.live, hgranted]
      by_cases hp : protocol = protocol2
      · rw [live_due_protocol2 (hqueue hs) (hprotocol.trans hp)]
        exact Nat.zero_le _
      · rcases hcovered c hc id hid s hs hp with hsame | hroom
        · exact absurd hsame hrole
        · exact Nat.le_trans (live_sublist List.filter_sublist) hroom
  | @joined m idx generation sessionId protocol observe _ s h =>
    refine (hall id c' s h).quiet (Nat.le_of_eq ?_) rfl (Nat.le_refl _)
    rw [attach_live]
  | @left _ _ s _ h hleft =>
    have hsub := hleft.outbound.filter (p := fun q => !(c'.protocol = protocol2 && q.frame.isData))
    exact (hall id c' s h).quiet (live_sublist hsub) rfl (Nat.le_refl _)
  | @exit m _ s t status h hsteady =>
    obtain ⟨qs, hqueue, hqs⟩ := observeExit_queue t status
    have hnew : live (c'.due qs) = [] := live_control fun q hq => hqs q (List.mem_of_mem_filter hq)
    refine (hall id c' s h).quiet (Nat.le_of_eq ?_) rfl (Nat.le_refl _)
    rw [hqueue, due_append, live_append, hnew, List.append_nil, hsteady.outbound]
  | @fanout c _ s p got h hpath _ hgives hcredit hsent =>
    have hsince := hsent.since_spend (hle h)
    have hbefore := hcovered c h.mem h.leaf s h.session
    rw [account, fansOut, if_pos hpath] at hbefore
    rw [Granted, due_congr (c := c) hsent.protocol, hsince, live_append, live_liveFrame,
      List.length_append, hsent.granted]
    change (live (c.due s.outbound)).length + _ ≤ c.granted
    omega
  | @short _ s p got h => exact hall id c' s h
  | @queue _ s p got h hpath _ hcredit hgives =>
    have hbefore := hcovered c' h.mem h.leaf s h.session
    rw [account, fansOut, hpath, if_neg Bool.false_ne_true] at hbefore
    have hnew : (live (c'.due [⟨.data got, .live s.pty.taken.length⟩])).length ≤ got.length := by
      refine Nat.le_trans (live_sublist List.filter_sublist) ?_
      exact Nat.le_of_eq (congrArg List.length (List.append_nil got))
    unfold Granted
    change (live (c'.due (if ({ s with pty := p } : Session).hasListeners then _ else _))).length + _
      ≤ _
    split
    case isTrue =>
      rw [due_append, live_append, List.length_append]
      change (live (c'.due s.outbound)).length + _ + _ ≤ _
      omega
    case isFalse => exact hall id c' s h
  | @flush c _ s _ h hsent hleft =>
    have hbefore : _ + _ ≤ _ := hall id c s h
    have hempty : s'.outbound = [] := List.sublist_nil.mp hleft.outbound
    rw [Granted, hempty, hsent.since (hle h), live_append, List.length_append, hsent.granted]
    change 0 + _ ≤ _
    omega
  | @lost _ _ _ _ s _ h _ _ _ hleft =>
    have hempty : s'.outbound = [] := List.sublist_nil.mp hleft.outbound
    refine (hall id c' s h).quiet ?_ rfl (Nat.le_refl _)
    rw [hempty]
    exact Nat.zero_le _
  | @skipResync _ s h => exact hall id _ s h
  | @repaint _ s bytes h =>
    refine (hall id c' s h).quiet (Nat.le_of_eq ?_) rfl (Nat.le_refl _)
    change (live (c'.due (s.outbound ++ _))).length = _
    have hrepaint : live (c'.due [⟨.data bytes, .repaint s.pty.taken.length⟩]) = [] :=
      live_due (forall_not_live nofun)
    rw [due_append, live_append, hrepaint, List.append_nil]

/-- A client that never attached was sent nothing live. -/
theorem unattached_runs {G : Daemon → Act → Prop} {d₀ d : Daemon} (h₀ : d₀.clients = [])
    (hrun : Runs Act.Takes G d₀ d) : ∀ c ∈ d.clients, c.leaf = none → live c.log = [] := by
  refine clients_runs (K := fun c => c.leaf = none → live c.log = []) h₀ (fun _ _ => rfl) ?_ hrun
  intro d a c c' _ _ _ h hbecomes hleaf
  cases hbecomes with
  | stays hsent hqs =>
    rw [hsent.log, live_append, h (hsent.leaf.symm.trans hleaf), live_refused hqs]
    rfl
  | @credits m idx f =>
    obtain ⟨hsame, -, -, hlog, -⟩ := creditClient_role f c
    rw [hlog]
    exact h (hsame.symm.trans hleaf)
  | attaches _ _ hsent =>
    rw [hsent.leaf] at hleaf
    cases hleaf
  | spends hc _ _ _ _ hsent =>
    rw [hsent.leaf, Client.spend, hc] at hleaf
    cases hleaf
  | served hsent =>
    have hnone := hsent.leaf.symm.trans hleaf
    have hqueued : queued d c.leaf = [] := by
      rw [hnone]
      rfl
    rw [hsent.log, live_append, h hnone, hqueued]
    rfl

-- ---------------------------------------------------------------------------
-- Grants
-- ---------------------------------------------------------------------------

def clientsOf (clients : List Client) (id : SessionId) : List Client :=
  clients.filter fun c => c.leaf = some id

theorem hasProtocol2_clientsOf (d : Daemon) (id : SessionId) :
    hasProtocol2 d id = (clientsOf d.clients id).any fun c => c.protocol = protocol2 := by
  rw [clientsOf, List.any_filter, hasProtocol2]

theorem protocol1WriterCredit_clientsOf (clients : List Client) (id : SessionId) :
    protocol1WriterCredit clients id = protocol1WriterCredit (clientsOf clients id) id := by
  have hsame : clients.filter (fun c => c.isWriter id && c.protocol ≠ protocol2) =
      (clientsOf clients id).filter fun c => c.isWriter id && c.protocol ≠ protocol2 := by
    rw [clientsOf, List.filter_filter]
    refine List.filter_congr fun c _ => ?_
    by_cases hleaf : c.leaf = some id
    · simp [hleaf]
    · simp [Client.isWriter, hleaf]
  rw [protocol1WriterCredit, hsame]
  rfl

theorem account_congr {d d' : Daemon} {id : SessionId}
    (hclients : clientsOf d'.clients id = clientsOf d.clients id) (hworker : d'.isWorker = d.isWorker)
    {s s' : Session} (hcredit : s'.credit = s.credit) (c : Client) :
    account d' id c s' = account d id c s ∧ window d' id s' = window d id s := by
  have hpath : fansOut d' id = fansOut d id := by
    rw [fansOut, fansOut, hasProtocol2_clientsOf, hclients, ← hasProtocol2_clientsOf, hworker]
  refine ⟨?_, ?_⟩
  · rw [account, account, hpath, hcredit]
  · rw [window, window, hpath, hcredit, protocol1WriterCredit_clientsOf, hclients,
      ← protocol1WriterCredit_clientsOf]

theorem clientsOf_eraseIdx {clients : List Client} {idx : Nat} {x : Client} {id : SessionId}
    (hx : clients[idx]? = some x) (h : x.leaf ≠ some id) :
    clientsOf (clients.eraseIdx idx) id = clientsOf clients id := by
  obtain ⟨l₁, l₂, rfl, rfl⟩ := exists_split hx
  rw [eraseIdx_split]
  simp [clientsOf, h]

theorem clientsOf_set {clients : List Client} {idx : Nat} {x x' : Client} {id : SessionId}
    (hx : clients[idx]? = some x) (h : x.leaf ≠ some id) (h' : x'.leaf ≠ some id) :
    clientsOf (clients.set idx x') id = clientsOf clients id := by
  obtain ⟨l₁, l₂, rfl, rfl⟩ := exists_split hx
  rw [set_split]
  simp [clientsOf, h, h']

/-- A CREDIT goes to its client's account and to its session's; without a leaf it ends the
connection. -/
theorem credit_ok {m : Moment} {idx : Nat} {n : UInt32} {d d' : Daemon}
    (h : (dispatchFrame m idx (.credit n)).exec d = (.ok (), d')) :
    (d.leafOf idx = none ∧ d' = d.dropClient idx) ∨
      ∃ i x s t, d.clients[idx]? = some x ∧ x.leaf = some i ∧ d.session i = some s ∧
        t.credit = min (s.credit + n.toNat) u64Max ∧
        d'.session = Function.update d.session i (some t) ∧
        d'.clients = d.clients.set idx (x.addCredit n) ∧ d'.isWorker = d.isWorker := by
  rw [exec_dispatchFrame rfl] at h
  cases hleaf : d.leafOf idx with
  | none =>
    rw [hleaf] at h
    exact .inl ⟨rfl, (Prod.mk.inj h).2.symm⟩
  | some i =>
    obtain ⟨x, hx, hxi⟩ := leafOf_eq_some.mp hleaf
    have hinput : (d.observes idx && isInput (.credit n)) = false := Bool.and_false _
    rw [hleaf] at h
    dsimp only at h
    rw [hinput, if_neg Bool.false_ne_true, exec_dispatchOwn] at h
    obtain ⟨s, k, hs, rfl, -, hk⟩ := onFrame_ok h
    refine .inr ⟨i, x, s, _, hx, hxi, hs, Session.onFrame_credit s m (.credit n), hk, ?_, rfl⟩
    rw [clients_setKernel, clients_modifyClient, modify_of_get hx]
    rfl

/-- A grant that is covered is of no use to another client of the leaf, and opens no window to
another writer. -/
theorem grant_others {m : Moment} {idx : Nat} {n : UInt32} {d d' : Daemon}
    (hcovered : Covered d (.frame m idx (.credit n)))
    (h : (dispatchFrame m idx (.credit n)).exec d = (.ok (), d')) {j : Nat} {c : Client}
    {id : SessionId} {s s' : Session} (hj : j ≠ idx) (hc : d.clients[j]? = some c)
    (hleaf : c.leaf = some id) (hs : d.session id = some s) (hs' : d'.session id = some s') :
    c ∈ d'.clients ∧ account d' id c s' = account d id c s ∧
      (c.isWriter id = true → window d' id s' = window d id s) := by
  rcases credit_ok h with ⟨hnone, rfl⟩ | ⟨i, x, t, t', hx, hxi, ht, hcredit, hsession, hclients, hworker⟩
  · cases hx : d.clients[idx]? with
    | none =>
      rw [dropClient_of_none hx] at hs' ⊢
      rw [hs] at hs'
      obtain rfl := Option.some.inj hs'
      exact ⟨List.mem_of_getElem? hc, rfl, fun _ => rfl⟩
    | some x =>
      have hxnone : x.leaf = none := by simpa [leafOf, hx] using hnone
      rw [session_dropClient hx, leave_none_map hxnone, hs] at hs'
      obtain rfl := Option.some.inj hs'
      have hsame : clientsOf (d.dropClient idx).clients id = clientsOf d.clients id := by
        rw [clients_dropClient]
        refine clientsOf_eraseIdx hx fun hleaf => ?_
        rw [hxnone] at hleaf
        cases hleaf
      have hmem : c ∈ (d.dropClient idx).clients := by
        rw [clients_dropClient]
        exact List.mem_eraseIdx_iff_getElem?.mpr ⟨j, hj, hc⟩
      obtain ⟨haccount, hwindow⟩ := account_congr hsame ((Kept.refl d).dropClient idx).isWorker rfl c
      exact ⟨hmem, haccount, fun _ => hwindow⟩
  · have hmem : c ∈ d'.clients := by
      rw [hclients]
      refine List.mem_of_getElem? (i := j) ?_
      rw [List.getElem?_set_ne hj.symm, hc]
    by_cases hid : i = id
    · subst hid
      rw [hs] at ht
      obtain rfl := Option.some.inj ht
      rw [hsession, Function.update_self] at hs'
      obtain rfl := Option.some.inj hs'
      have hpath : fansOut d' i = fansOut d i := by
        rw [fansOut, fansOut, hworker, hasProtocol2, hasProtocol2, hclients]
        exact congrArg (· || d.isWorker) (any_set_same hx rfl)
      have hguard := hcovered x hx i hxi s hs
      have hother : c ∈ d.clients.eraseIdx idx := List.mem_eraseIdx_iff_getElem?.mpr ⟨j, hj, hc⟩
      by_cases hfan : fansOut d i = true
      · rw [if_pos hfan] at hguard
        refine ⟨hmem, ?_, fun hwriter => ?_⟩
        · rw [account, account, hpath, if_pos hfan, if_pos hfan]
        · have hout : (x.isWriter i && decide (x.protocol ≠ protocol2)) = false := by
            refine Bool.eq_false_iff.mpr fun h => ?_
            obtain ⟨hxw, hxp⟩ := Bool.and_eq_true_iff.mp h
            exact hguard hxw (of_decide_eq_true hxp) c hother hwriter
          rw [window, window, hpath, if_pos hfan, if_pos hfan, protocol1WriterCredit,
            protocol1WriterCredit, hclients, filter_set_out hx hout hout]
      · rw [if_neg hfan] at hguard
        rcases hguard with halone | hnothing
        · exact absurd hleaf (halone c hother)
        · have hsame := hcredit.trans hnothing
          refine ⟨hmem, ?_, fun _ => ?_⟩
          · rw [account, account, hpath, if_neg hfan, if_neg hfan, hsame]
          · rw [window, window, hpath, if_neg hfan, if_neg hfan, hsame]
    · have hne : x.leaf ≠ some id := by
        rw [hxi]
        exact fun h => hid (Option.some.inj h)
      rw [hsession, Function.update_of_ne fun h => hid h.symm, hs] at hs'
      obtain rfl := Option.some.inj hs'
      have hsame : clientsOf d'.clients id = clientsOf d.clients id := by
        rw [hclients]
        exact clientsOf_set hx hne hne
      obtain ⟨haccount, hwindow⟩ := account_congr hsame hworker rfl c
      exact ⟨hmem, haccount, fun _ => hwindow⟩

/-- In worker mode every read and every attach is covered. -/
theorem worker_covered {G : Daemon → Act → Prop} {turns : List Turn} {size : Winsize}
    {d₀ d : Daemon} (hbind : Daemon.bind (.spawn size turns) size true = .ok d₀)
    (hrun : Runs Act.Takes G d₀ d) :
    (∀ id, CoveredRead d id) ∧
      ∀ idx sessionId protocol observe, CoveredAttach d idx sessionId protocol observe := by
  have hworker : d.isWorker = true := (isWorker_runs hrun).trans (bind_ok hbind).2.1
  have hnone : ∀ {id s}, d.session id = some s → ∀ q ∈ s.outbound, ∀ start, q.origin ≠ .live start :=
    fun hs => live_not_queued hbind hrun hs
  refine ⟨fun id c hc hleaf s hs => ?_, fun _ _ _ _ c _ _ _ s hs _ => .inr ?_⟩
  · have hpaid : (live c.log).length + c.credit ≤ c.granted := solvent_runs hbind hrun c hc
    have hsince := live_since_le c
    rw [account, fansOut, hworker, Bool.or_true, if_pos rfl, live_due (hnone hs), List.length_nil]
    omega
  · rw [live_eq_nil (hnone hs)]
    exact Nat.zero_le _

/-- In every run whose reads, attaches and grants are covered, every client was sent no more
live output since its attach than it has granted itself, all on its socket or in its outbox; and a
grant is of no use to another client, and opens no window to another writer. -/
theorem credit_per_client {turns : List Turn} {size : Winsize} {isWorker : Bool} {d₀ d : Daemon}
    (hbind : Daemon.bind (.spawn size turns) size isWorker = .ok d₀)
    (hrun : Runs Act.Takes Covered d₀ d) :
    (∀ c ∈ d.clients, c.Written ∧ (live c.since).length ≤ c.granted) ∧
      ∀ m idx n d', Covered d (.frame m idx (.credit n)) →
        Act.Takes d (.frame m idx (.credit n)) d' →
        ∀ j c id s s', j ≠ idx → d.clients[j]? = some c → c.leaf = some id →
          d.session id = some s → d'.session id = some s' →
          c ∈ d'.clients ∧ account d' id c s' = account d id c s ∧
            (c.isWriter id = true → window d' id s' = window d id s) := by
  have h₀ := (bind_ok hbind).1
  refine ⟨fun c hc => ⟨written_runs h₀ hrun c hc, ?_⟩, ?_⟩
  · cases hleaf : c.leaf with
    | none =>
      have hnone := unattached_runs h₀ hrun c hc hleaf
      have hle := live_since_le c
      rw [hnone] at hle
      exact Nat.le_trans hle (Nat.zero_le _)
    | some id =>
      obtain ⟨s, hs⟩ := linked_runs h₀ hrun c hc id hleaf
      exact Nat.le_trans (Nat.le_add_left _ _) (granted_runs hbind hrun ⟨hc, hleaf, hs⟩)
  · intro m idx n d' hcovered htakes j c id s s' hj hc hleaf hs hs'
    exact grant_others hcovered htakes.2 hj hc hleaf hs hs'

/-- Two leaves with a writer each, of which one is sent all it granted. What the other grants then is
of no use to it. -/
theorem credit_per_client_leaves :
    let letters : List Turn := [⟨[97, 98, 99, 100, 101, 102, 103, 104, 105], none, none, none⟩]
    let grant : Act := .frame ⟨0, 3600⟩ 1 (.credit 4)
    ∃ d₀ d d' c s s', Daemon.bind (.spawn ⟨4, 2, 0, 0⟩ letters) ⟨4, 2, 0, 0⟩ false = .ok d₀ ∧
      Runs Act.Takes Covered d₀ d ∧
      d.clients.map (fun c => ((live c.since).length, c.granted)) = [(4, 4), (3, 5)] ∧
      (∀ c ∈ d.clients, c.Written ∧ (live c.since).length ≤ c.granted) ∧
      d.clients[0]? = some c ∧ d.session ⟨1⟩ = some s ∧ d'.session ⟨1⟩ = some s' ∧
      grant.Takes d d' ∧ c ∈ d'.clients ∧ account d' ⟨1⟩ c s' = account d ⟨1⟩ c s ∧
        window d' ⟨1⟩ s' = window d ⟨1⟩ s := by
  intro letters grant
  obtain ⟨d₀, d, hbind, hrun, hfound⟩ := exists_follow (G := Covered) letters ⟨4, 2, 0, 0⟩ false
    [.spawn [⟨[120, 121, 122], none, none, none⟩], .accept (.of [] [] []), .accept (.of [] [] []),
      .frame ⟨0, 3600⟩ 0 (.attach 1 none protocolVersion false),
      .frame ⟨0, 3600⟩ 1 (.attach 2 (some 2) protocolVersion false),
      .frame ⟨0, 3600⟩ 0 (.credit 4), .frame ⟨0, 3600⟩ 1 (.credit 5), .drain ⟨1⟩, .drain ⟨2⟩, .flush]
    (p := fun d => d.clients.map (fun c => ((live c.since).length, c.granted)) = [(4, 4), (3, 5)] &&
      Covered d grant && (grant.run.exec d).1.isOk &&
      (d.clients[0]?.any fun c => c.isWriter ⟨1⟩ && c.leaf = some ⟨1⟩) &&
      (d.session ⟨1⟩).isSome && ((grant.run.exec d).2.session ⟨1⟩).isSome) (by decide +kernel)
  simp only [Bool.and_eq_true, Option.any_eq_true, decide_eq_true_eq, Option.isSome_iff_exists] at hfound
  obtain ⟨⟨⟨⟨⟨hsent, hcovered⟩, hok⟩, c, hc, hwriter, hleaf⟩, s, hs⟩, s', hs'⟩ := hfound
  obtain ⟨d', htakes, hexec⟩ := Act.exists_takes (a := grant) trivial hok
  rw [hexec] at hs'
  obtain ⟨hbounded, hgrant⟩ := credit_per_client hbind hrun
  obtain ⟨hmem, haccount, hwindow⟩ :=
    hgrant _ 1 4 d' hcovered htakes 0 c ⟨1⟩ s s' Nat.zero_ne_one hc hleaf hs hs'
  exact ⟨d₀, d, d', c, s, s', hbind, hrun, hsent, hbounded, hc, hs, hs', htakes, hmem, haccount,
    hwindow hwriter⟩

/-- A writer that granted nothing is sent what an observer's grant lets through. -/
theorem observer_pays :
    ∃ d, after [⟨[97, 98, 99], none, none, none⟩] ⟨1, 1, 0, 0⟩ false
        [{ Poll.quiet with
            accept := .ok (some (.of [.attach 1 none protocolVersion false] [] [])) },
          { Poll.quiet with
            ready := fun idx => idx = 0
            accept := .ok (some (.of [.attach 2 none protocolVersion true, .credit 5] [] [])) },
          { Poll.quiet with ready := fun idx => idx = 1, readable := fun _ => true }] = .ok d ∧
      ∃ c ∈ d.clients, c.isWriter ⟨1⟩ = true ∧ c.granted = 0 ∧ live c.since = [97, 98, 99] := by
  refine exists_after (p := fun d => d.clients.any fun c => c.isWriter ⟨1⟩ && c.granted = 0 &&
    live c.since = [97, 98, 99]) (by decide +kernel) fun d hfound => ?_
  simp only [List.any_eq_true, Bool.and_eq_true, decide_eq_true_eq] at hfound
  obtain ⟨c, hc, ⟨hwriter, hgranted⟩, hlive⟩ := hfound
  exact ⟨c, hc, hwriter, hgranted, hlive⟩

end Rill.Daemon
