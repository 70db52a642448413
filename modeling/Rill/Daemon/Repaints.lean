import Rill.Daemon.Flush
import Rill.Daemon.Streams
import Rill.Daemon.Written

/-!
# Repaints

A writer's ATTACH makes a repaint due. The daemon queues it at the end of the step
and flushes it in the next, and what is on the leaf meanwhile decides whether it gets
there, once.
-/

namespace Rill.Daemon

open Lib Attach Kernel

/-- A history as DATA. -/
def isRepaint (q : Queued) : Bool :=
  match q.origin with
  | .repaint _ => q.frame.isData
  | _ => false

/-- `q` is the repaint of a history that the leaf has had since `start` bytes were read. -/
def RepaintSince (stream : List UInt8) (start : Nat) (q : Queued) : Prop :=
  ∃ upTo bytes, q = ⟨.data bytes, .repaint upTo⟩ ∧ start ≤ upTo ∧ upTo ≤ stream.length ∧
    ∃ chip chip' : Vt.VtEngine,
      chip.resyncFromHistory ((stream.take upTo).drop (upTo - ringCap)) = .ok (bytes, chip')

theorem RepaintSince.mono {stream stream' : List UInt8} {start : Nat} {q : Queued}
    (h : RepaintSince stream start q) (hstream : stream <+: stream') :
    RepaintSince stream' start q := by
  obtain ⟨upTo, bytes, hq, hstart, hle, chip, chip', hbytes⟩ := h
  obtain ⟨more, rfl⟩ := hstream
  refine ⟨upTo, bytes, hq, hstart, ?_, chip, chip', ?_⟩
  · rw [List.length_append]
    omega
  · rwa [List.take_append_of_le_length hle]

/-- The writer has its repaint in the outbox, in the queue of its leaf, or due: in one of
them, and once. -/
structure Painted (c : Client) (s : Session) : Prop where
  once : c.since.countP isRepaint + s.outbound.countP isRepaint + s.resyncPending.toNat = 1
  from_le : c.attachedFrom ≤ s.pty.taken.length
  since : ∀ q ∈ c.since ++ s.outbound, isRepaint q = true →
    RepaintSince s.pty.taken c.attachedFrom q

theorem countP_isRepaint {qs : List Queued} (h : ∀ q ∈ qs, isRepaint q = false) :
    qs.countP isRepaint = 0 :=
  List.countP_eq_zero.mpr fun q hq => Bool.eq_false_iff.mp (h q hq)

/-- Nothing that is sent or queued is a repaint. -/
theorem Painted.quiet {c c' : Client} {s t : Session} {qs qs' : List Queued} (h : Painted c s)
    (htaken : s.pty.taken <+: t.pty.taken) (hpending : t.resyncPending = s.resyncPending)
    (hqueue : t.outbound = s.outbound ++ qs) (hqs : ∀ q ∈ qs, isRepaint q = false)
    (hsince : c'.since = c.since ++ qs') (hqs' : ∀ q ∈ qs', isRepaint q = false)
    (hfrom : c'.attachedFrom = c.attachedFrom) : Painted c' t where
  once := by
    rw [hsince, hqueue, hpending, List.countP_append, List.countP_append, countP_isRepaint hqs,
      countP_isRepaint hqs']
    exact h.once
  from_le := by
    rw [hfrom]
    exact Nat.le_trans h.from_le htaken.length_le
  since q hq hrepaint := by
    rw [hsince, hqueue] at hq
    have hold : q ∈ c.since ++ s.outbound → RepaintSince t.pty.taken c'.attachedFrom q := by
      intro hq
      rw [hfrom]
      exact (h.since q hq hrepaint).mono htaken
    rcases List.mem_append.mp hq with hq | hq
    · rcases List.mem_append.mp hq with hq | hq
      · exact hold (List.mem_append_left _ hq)
      · rw [hqs' q hq] at hrepaint
        cases hrepaint
    · rcases List.mem_append.mp hq with hq | hq
      · exact hold (List.mem_append_right _ hq)
      · rw [hqs q hq] at hrepaint
        cases hrepaint

theorem Painted.queue {c : Client} {s t : Session} {qs : List Queued} (h : Painted c s)
    (htaken : s.pty.taken <+: t.pty.taken) (hpending : t.resyncPending = s.resyncPending)
    (hqueue : t.outbound = s.outbound ++ qs) (hqs : ∀ q ∈ qs, isRepaint q = false) : Painted c t :=
  h.quiet htaken hpending hqueue hqs (List.append_nil _).symm nofun rfl

theorem Painted.claim {c : Client} {s : Session}
    (hpending : s.resyncPending = true) (hqueue : ∀ q ∈ s.outbound, isRepaint q = false)
    (hsince : c.since = []) (hfrom : c.attachedFrom = s.pty.taken.length) : Painted c s where
  once := by
    rw [hsince, hpending, countP_isRepaint hqueue]
    rfl
  from_le := Nat.le_of_eq hfrom
  since q hq hrepaint := by
    rw [hsince, List.nil_append] at hq
    rw [hqueue q hq] at hrepaint
    cases hrepaint

theorem Painted.flush {c c' : Client} {s t : Session} (h : Painted c s)
    (htaken : t.pty.taken = s.pty.taken) (hpending : t.resyncPending = s.resyncPending)
    (hqueue : t.outbound = []) (hsince : c'.since = c.since ++ s.outbound)
    (hfrom : c'.attachedFrom = c.attachedFrom) : Painted c' t where
  once := by
    rw [hsince, hqueue, hpending, List.countP_append]
    exact h.once
  from_le := by
    rw [hfrom, htaken]
    exact h.from_le
  since q hq hrepaint := by
    rw [hqueue, List.append_nil, hsince] at hq
    rw [htaken, hfrom]
    exact h.since q hq hrepaint

/-- What is queued has no repaint, and goes nowhere. -/
theorem Painted.lose {c : Client} {s t : Session} (h : Painted c s)
    (htaken : t.pty.taken = s.pty.taken) (hpending : t.resyncPending = s.resyncPending)
    (hqueue : t.outbound = []) (hlost : ∀ q ∈ s.outbound, isRepaint q = false) : Painted c t where
  once := by
    have honce := h.once
    rw [countP_isRepaint hlost] at honce
    rw [hqueue, hpending]
    exact honce
  from_le := htaken ▸ h.from_le
  since q hq hrepaint := by
    rw [hqueue, List.append_nil] at hq
    rw [htaken]
    exact h.since q (List.mem_append_left _ hq) hrepaint

theorem Painted.repaint {c : Client} {s : Session} {bytes : List UInt8} (h : Painted c s)
    (hcounted : Counted s) (hpending : s.resyncPending = true)
    (hbytes : ∃ chip chip' : Vt.VtEngine, chip.resyncFromHistory s.history = .ok (bytes, chip')) :
    Painted c (s.takeResyncHistory.2.enqueueOutbound ⟨.data bytes, .repaint s.pty.taken.length⟩) where
  once := by
    have honce := h.once
    rw [hpending] at honce
    change _ + (s.outbound ++ [_]).countP isRepaint + 0 = 1
    rw [List.countP_append]
    exact honce
  from_le := h.from_le
  since q hq hrepaint := by
    change q ∈ c.since ++ (s.outbound ++ [_]) at hq
    rw [← List.append_assoc] at hq
    rcases List.mem_append.mp hq with hq | hq
    · exact h.since q hq hrepaint
    · obtain rfl := List.mem_singleton.mp hq
      rw [hcounted.history] at hbytes
      exact ⟨_, _, rfl, h.from_le, Nat.le_refl _, hbytes⟩

-- ---------------------------------------------------------------------------
-- What disturbs a repaint
-- ---------------------------------------------------------------------------

/-- The client already has the role, or is the writer and takes protocol 2; or the leaf is
free, and no repaint is on its way there. -/
def JoinsAlone (c : Client) (id : SessionId) (s : Session) (protocol : UInt8) : Prop :=
  c.hasRole id false protocol = true ∨ (c.isWriter id = true ∧ protocol = protocol2) ∨
    (s.attached = false ∧ (protocol = protocol2 ∨ ∀ q ∈ s.outbound, isRepaint q = false))

instance (c : Client) (id : SessionId) (s : Session) (protocol : UInt8) :
    Decidable (JoinsAlone c id s protocol) := inferInstanceAs (Decidable (_ ∨ _ ∨ _))

/-- So does every client whose ATTACH to write is let through. -/
abbrev AttachesAlone (d : Daemon) (idx : Nat) (sessionId : Option UInt64) (protocol : UInt8) :
    Prop :=
  ∀ c ∈ d.clients[idx]?, ∀ id ∈ d.resolveAttach sessionId, ∀ s ∈ d.session id,
    Frame.protocolSupported protocol = true → (s.attached = true → c.leaf = some id) →
      JoinsAlone c id s protocol

/-- Where a repaint is due, a protocol-1 writer has no protocol-2 client beside it. -/
abbrev ResyncsAlone (d : Daemon) (id : SessionId) : Prop :=
  ∀ s ∈ d.session id, s.resyncPending = true → hasProtocol2 d id = true →
    ∀ c ∈ d.clients, c.isWriter id = true → c.protocol = protocol2

abbrev FlushesAll (d : Daemon) : Prop :=
  ∀ i < d.clients.length, ∀ x ∈ d.clients[i]?, failing d x = true →
    ∀ c ∈ d.clients.drop (i + 1), c.observe = false → ∀ q ∈ owed d c, isRepaint q = false

def Undisturbed (d : Daemon) : Act → Prop
  | .frame _ idx (.attach _ sessionId protocol false) => AttachesAlone d idx sessionId protocol
  | .resync id => ResyncsAlone d id
  | .flush => FlushesAll d
  | _ => True

instance (d : Daemon) : (a : Act) → Decidable (Undisturbed d a)
  | .frame _ idx (.attach _ sessionId protocol false) =>
    inferInstanceAs (Decidable (AttachesAlone d idx sessionId protocol))
  | .resync id => inferInstanceAs (Decidable (ResyncsAlone d id))
  | .flush => inferInstanceAs (Decidable (FlushesAll d))
  | .frame _ _ (.attach _ _ _ true) | .frame _ _ (.credit _) | .frame _ _ (.data _)
  | .frame _ _ (.resize ..) | .frame _ _ (.exit _) | .frame _ _ (.refused _)
  | .frame _ _ (.checkpoint ..) | .frame _ _ (.delta ..) | .frame _ _ .resyncRequest
  | .accept _ | .spawn _ | .fetch _ | .reap .. | .drain _ => instDecidableTrue

theorem Undisturbed.noUpgrade {d : Daemon} {a : Act} (h : Undisturbed d a) : NoUpgrade d a := by
  rintro slot id ⟨m, generation, sessionId, protocol, rfl, hprotocol, hid, hmine⟩ hheld
  obtain ⟨c, hc, hleaf⟩ := leafOf_eq_some.mp (hmine hheld Bool.false_ne_true)
  obtain ⟨s, hs, hattached⟩ := attached_iff.mp hheld
  have hobserve : c.observe = false := by
    rcases h c hc id hid s hs hprotocol fun _ => hleaf with hrole | ⟨hwriter, -⟩ | ⟨hfree, -⟩
    · exact (Client.hasRole_iff.mp hrole).2.1
    · exact (Client.isWriter_iff.mp hwriter).2
    · rw [hattached] at hfree
      cases hfree
  rw [observes, hc]
  exact hobserve

theorem oneWriter_runs {turns : List Turn} {size : Winsize} {isWorker : Bool} {d₀ d : Daemon}
    (hbind : Daemon.bind (.spawn size turns) size isWorker = .ok d₀)
    (hrun : Runs Act.Takes Undisturbed d₀ d) : Ledger.AtMostOneHolder (ledger d) :=
  atMostOneHolder_runs (ledger_bind hbind).atMostOneHolder (hrun.mono fun _ _ h => h.noUpgrade)

theorem isRepaint_refused {qs : List Queued}
    (h : ∀ q ∈ qs, ∃ reason, q = ⟨.refused reason, .control⟩) : ∀ q ∈ qs, isRepaint q = false := by
  intro q hq
  obtain ⟨reason, rfl⟩ := h q hq
  rfl

theorem due_protocol1 {c : Client} (h : c.protocol ≠ protocol2) (qs : List Queued) :
    c.due qs = qs :=
  List.filter_eq_self.mpr fun q _ => by simp [h]

theorem isRepaint_control {qs : List Queued} (h : ∀ q ∈ qs, q.origin = .control) :
    ∀ q ∈ qs, isRepaint q = false := by
  intro q hq
  rw [isRepaint, h q hq]

theorem attach_free {s : Session} (h : s.attached = false) (m : Moment) (generation : UInt64) :
    (s.attach m generation false).resyncPending = true := by
  unfold Session.attach
  rw [if_neg Bool.false_ne_true, h, if_neg Bool.false_ne_true]
  rfl

theorem attach_held {s : Session} (observe : Bool) (h : observe = false → s.attached = true)
    (m : Moment) (generation : UInt64) :
    (s.attach m generation observe).resyncPending = s.resyncPending := by
  cases observe with
  | true => rfl
  | false =>
    unfold Session.attach
    rw [if_neg Bool.false_ne_true, h rfl, if_pos rfl]
    rfl

/-- A writer that attaches alone finds its repaint due, or has it from when it took the leaf. -/
theorem Painted.joins {d : Daemon} {idx : Nat} {id : SessionId} {c c' : Client} {s : Session} {m : Moment}
    {generation : UInt64} {protocol : UInt8} (hc : d.clients[idx]? = some c) (hs : d.session id = some s)
    (halone : JoinsAlone c id s protocol) (hprotocol : protocol ≠ protocol2)
    (hsent : (c.attachTo id false protocol s.pty.taken.length).Sent c' [])
    (hle : On d id c s → c.attachedAt ≤ c.log.length)
    (hheld : On d id c s → c.observe = false → s.attached = true)
    (hbefore : On d id c s → c.observe = false → c.protocol ≠ protocol2 → Painted c s) :
    Painted c' (s.attach m generation false) := by
  obtain ⟨hpty, -, -⟩ := attach_stream s m generation false
  obtain ⟨qs, hqueue, hqs⟩ := attach_queue s m generation false
  have hsince := hsent.since_attachTo fun hrole => hle (.of_hasRole hc hs hrole)
  by_cases hrole : c.hasRole id false protocol = true
  · -- the session refuses what the writer already is
    obtain ⟨-, hobs, hproto⟩ := Client.hasRole_iff.mp hrole
    have hon : On d id c s := .of_hasRole hc hs hrole
    have hpending := attach_held false (fun _ => hheld hon hobs) m generation
    rw [if_pos hrole] at hsince
    have hfrom : c'.attachedFrom = c.attachedFrom := by
      rw [hsent.attachedFrom, Client.attachTo, if_pos hrole]
    exact (hbefore hon hobs (hproto ▸ hprotocol)).quiet (hpty ▸ List.prefix_rfl) hpending hqueue
      (isRepaint_control hqs) hsince (List.forall_mem_nil _) hfrom
  · rcases halone with hsame | ⟨-, htwo⟩ | ⟨hfree, hnone⟩
    · exact absurd hsame hrole
    · exact absurd htwo hprotocol
    · rw [if_neg hrole] at hsince
      refine .claim (attach_free hfree m generation) ?_ hsince ?_
      · intro q hq
        rw [hqueue] at hq
        rcases List.mem_append.mp hq with hq | hq
        · exact hnone.resolve_left hprotocol q hq
        · exact isRepaint_control hqs q hq
      · rw [hsent.attachedFrom, hpty, Client.attachTo, if_neg hrole]

/-- Nobody leaves beside a writer but an observer. -/
theorem Painted.left {d : Daemon} {id : SessionId} {c : Client} {s t : Session} (h : Painted c s)
    (hone : Ledger.AtMostOneHolder (ledger d)) (hwriter : c.isWriter id = true)
    (hleft : Left d id c s t) : Painted c t := by
  rcases hleft with rfl | ⟨x, hx, ⟨i, j, hne, hi, hj⟩, rfl⟩
  · exact h
  · cases hobs : x.observe with
    | true => exact h.queue List.prefix_rfl rfl (List.append_nil _).symm nofun
    | false =>
      have hxw := Client.isWriter_iff.mpr ⟨hx, hobs⟩
      exact absurd (writer_unique hone hi hj hxw hwriter) hne

theorem Painted.fansOut {c c' : Client} {s : Session} {p : Pty} {got : List UInt8} {n : Nat} {q : Queued}
    (h : Painted c s) (hgives : s.pty.Gives p got) (hlive : q.origin = .live s.pty.taken.length)
    (hsent : (c.spend n).Sent c' [q]) (hle : c.attachedAt ≤ c.log.length) :
    Painted c' (({ s with pty := p } : Session).deliver got) := by
  refine h.quiet ⟨got, hgives.taken.symm⟩ rfl (List.append_nil _).symm nofun (hsent.since_spend hle) ?_
    hsent.attachedFrom
  intro x hx
  obtain rfl := List.mem_singleton.mp hx
  rw [isRepaint, hlive]

theorem Painted.queues {c : Client} {s : Session} {p : Pty} {got : List UInt8} (h : Painted c s)
    (hgives : s.pty.Gives p got) :
    Painted c (({ s with pty := p } : Session).deliverQueued s.pty.taken.length got) := by
  obtain ⟨qs, hqueue, hqs⟩ := deliverQueued_queue { s with pty := p } s.pty.taken.length got
  refine h.queue ⟨got, hgives.taken.symm⟩ rfl hqueue fun q hq => ?_
  rw [isRepaint, hqs q hq]

/-- Nothing that a flush failing for another client takes from the writer is a repaint. -/
theorem Painted.lost {d : Daemon} {id : SessionId} {c x : Client} {l₁ l₂ : List Client} {s t : Session}
    (h : Painted c s) (hon : On d id c s) (hall : FlushesAll d) (hobserve : c.observe = false)
    (hprotocol : c.protocol ≠ protocol2) (hclients : d.clients = l₁ ++ x :: l₂)
    (hstop : ((Client.serve (queued d x.leaf)).exec x).1 = .error .write) (hbehind : c ∈ l₂)
    (hleft : Left d id c { s with outbound := [] } t) : Painted c t := by
  have howed : owed d c = s.outbound := by rw [owed, hon.queued, due_protocol1 hprotocol]
  have hnone := behind_stop hall hclients hstop hbehind hobserve
  exact h.lose hleft.taken hleft.resyncPending (List.sublist_nil.mp hleft.outbound) (howed ▸ hnone)

/-- In every undisturbed run, in every state, a protocol-1 writer has its repaint once. -/
theorem painted_runs {turns : List Turn} {size : Winsize} {isWorker : Bool} {d₀ d : Daemon}
    (hbind : Daemon.bind (.spawn size turns) size isWorker = .ok d₀)
    (hrun : Runs Act.Takes Undisturbed d₀ d) {id : SessionId} {c : Client} {s : Session}
    (h : On d id c s) (hobserve : c.observe = false) (hprotocol : c.protocol ≠ protocol2) :
    Painted c s := by
  have h₀ := (bind_ok hbind).1
  refine moved_runs (I := fun _ c s => c.observe = false → c.protocol ≠ protocol2 → Painted c s)
    h₀ ?_ hrun id c s h hobserve hprotocol
  intro d a id c' s' hrun hguard hall hmoved hobserve hprotocol
  have hle : ∀ {c s}, On d id c s → c.attachedAt ≤ c.log.length := attachedAt_runs h₀ hrun
  have hone := oneWriter_runs hbind hrun
  have hwriter : ∀ {c s}, On d id c s → c.observe = false → c.isWriter id = true :=
    fun h hobserve => Client.isWriter_iff.mpr ⟨h.leaf, hobserve⟩
  have hattached : ∀ {c s}, On d id c s → c.observe = false → s.attached = true := by
    intro c s h hobserve
    obtain ⟨i, hi⟩ := List.mem_iff_getElem?.mp h.mem
    exact (Kernel.attached_eq h.session).symm.trans (writer_attached hone hi (hwriter h hobserve))
  cases hmoved with
  | @keep _ f c _ s _ qs h hsteady hsent hqs =>
    obtain ⟨hobs, hproto, hfrom⟩ := hsent.role_credit
    have hbefore := hall id c s h (hobs.trans hobserve) (hproto ▸ hprotocol)
    have hqueue : s'.outbound = s.outbound ++ [] := hsteady.outbound.trans (List.append_nil _).symm
    exact hbefore.quiet (hsteady.pty.taken ▸ List.prefix_rfl) hsteady.resyncPending hqueue nofun
      (hsent.since_credit (hle h)) (isRepaint_refused hqs) hfrom
  | @joins m idx generation sessionId protocol observe c _ s shown hc hs hsupported hid hmine hshown hsent =>
    obtain ⟨rfl, hp, rfl⟩ := hsent.writer_attachTo hshown hobserve hprotocol
    have halone : JoinsAlone c id s protocol := hguard c hc id hid s hs hsupported fun hheld => by
      obtain ⟨x, hx, hleaf⟩ := leafOf_eq_some.mp (hmine hheld Bool.false_ne_true)
      rw [hc] at hx
      obtain rfl := Option.some.inj hx
      exact hleaf
    exact .joins hc hs halone hp hsent hle hattached (hall id c s)
  | @joined m idx generation sessionId protocol observe _ s h hother hsupported hid hmine =>
    obtain ⟨hpty, -, -⟩ := attach_stream s m generation observe
    obtain ⟨qs, hqueue, hqs⟩ := attach_queue s m generation observe
    have hpending := attach_held observe (fun _ => hattached h hobserve) m generation
    exact (hall id c' s h hobserve hprotocol).queue (hpty ▸ List.prefix_rfl) hpending hqueue
      (isRepaint_control hqs)
  | left h hleft => exact (hall id c' _ h hobserve hprotocol).left hone (hwriter h hobserve) hleft
  | @exit m _ s t status h hsteady =>
    obtain ⟨qs, hqueue, hqs⟩ := observeExit_queue t status
    rw [hsteady.outbound] at hqueue
    exact (hall id c' s h hobserve hprotocol).queue (hsteady.pty.taken ▸ List.prefix_rfl)
      hsteady.resyncPending hqueue (isRepaint_control hqs)
  | @fanout c _ s p got h _ _ hgives _ hsent =>
    have hp : c.protocol ≠ protocol2 := by
      rw [hsent.protocol] at hprotocol
      exact hprotocol
    exact (hall id c s h (hsent.observe.symm.trans hobserve) hp).fansOut hgives rfl hsent (hle h)
  | @short _ s p got h _ _ hgives =>
    exact (hall id c' s h hobserve hprotocol).queue ⟨got, hgives.taken.symm⟩ rfl
      (List.append_nil _).symm nofun
  | queue h _ _ _ hgives => exact (hall id c' _ h hobserve hprotocol).queues hgives
  | @flush c _ s _ h hsent hleft =>
    have hp : c.protocol ≠ protocol2 := by
      rw [hsent.protocol] at hprotocol
      exact hprotocol
    have hsince := hsent.since (hle h)
    rw [due_protocol1 hp] at hsince
    refine (hall id c s h (hsent.observe.symm.trans hobserve) hp).flush hleft.taken hleft.resyncPending
      (List.sublist_nil.mp hleft.outbound) hsince hsent.attachedFrom
  | lost h hclients hstop hbehind hleft =>
    exact (hall id c' _ h hobserve hprotocol).lost h hguard hobserve hprotocol hclients hstop hbehind hleft
  | @skipResync _ s h hskip =>
    have hpending : s.resyncPending = false := by
      rcases hskip with hskip | htwo
      · exact hskip
      · refine Bool.eq_false_iff.mpr fun hpending => hprotocol ?_
        exact hguard s h.session hpending htwo c' h.mem (hwriter h hobserve)
    exact (hall id c' s h hobserve hprotocol).queue List.prefix_rfl hpending.symm
      (List.append_nil _).symm nofun
  | @repaint _ s bytes h hpending _ hbytes =>
    obtain ⟨chip, hchip⟩ := hbytes
    exact (hall id c' s h hobserve hprotocol).repaint (counted_runs hbind hrun h.session) hpending
      ⟨d.chip, chip, hchip⟩

-- ---------------------------------------------------------------------------
-- Within the next step
-- ---------------------------------------------------------------------------

/-- After the resync of a leaf nothing is due there, and nothing more is due elsewhere. -/
theorem resyncLeaf_settles {i : SessionId} {d d' : Daemon} (h : (resyncLeaf i).exec d = (.ok (), d'))
    {id : SessionId} {t : Session} (ht : d'.session id = some t) :
    ∃ s, d.session id = some s ∧ (t.resyncPending = true → s.resyncPending = true ∧ id ≠ i) := by
  have heffect := (resyncLeaf_ok h).1
  generalize d'.session = S at heffect ht
  generalize d'.clients = C at heffect
  cases heffect with
  | idle hnone =>
    refine ⟨t, ht, fun hpending => ⟨hpending, ?_⟩⟩
    rintro rfl
    rw [show d.session id = none from hnone] at ht
    cases ht
  | skipResync hs | repaint hs =>
    rcases update_cases ht with ⟨rfl, rfl⟩ | ⟨hne, ht⟩
    · exact ⟨_, hs, nofun⟩
    · exact ⟨t, ht, fun hpending => ⟨hpending, hne⟩⟩

theorem resyncs_settle {ids : List SessionId} {d d' : Daemon}
    (h : (ids.forM resyncLeaf).exec d = (.ok (), d')) {id : SessionId} {t : Session}
    (ht : d'.session id = some t) :
    ∃ s, d.session id = some s ∧ (t.resyncPending = true → s.resyncPending = true ∧ id ∉ ids) := by
  induction ids generalizing d with
  | nil =>
    obtain rfl : d = d' := (Prod.mk.inj h).2
    exact ⟨t, ht, fun hpending => ⟨hpending, List.not_mem_nil⟩⟩
  | cons i ids ih =>
    rw [Op.forM_cons] at h
    obtain ⟨_, d₁, hfirst, hrest⟩ := Op.exec_bind_eq_ok.mp h
    obtain ⟨s₁, hs₁, hlater⟩ := ih hrest
    obtain ⟨s, hs, hsooner⟩ := resyncLeaf_settles hfirst hs₁
    refine ⟨s, hs, fun hpending => ?_⟩
    obtain ⟨hpending, hids⟩ := hlater hpending
    obtain ⟨hpending, hi⟩ := hsooner hpending
    exact ⟨hpending, fun hmem => (List.mem_cons.mp hmem).elim hi hids⟩

theorem step_settles {p : Poll} {d d' : Daemon} (h : (step p).exec d = (.ok (), d'))
    {id : SessionId} {t : Session} (ht : d'.session id = some t) : t.resyncPending = false := by
  obtain ⟨_, d₁, -, h⟩ := Op.exec_bind_eq_ok.mp h
  obtain ⟨_, d₂, -, h⟩ := Op.exec_bind_eq_ok.mp h
  obtain ⟨_, d₃, -, h⟩ := Op.exec_bind_eq_ok.mp h
  rw [maybeResync, Op.exec_get_bind] at h
  obtain ⟨s, hs, hsettled⟩ := resyncs_settle h ht
  refine Bool.eq_false_iff.mpr fun hpending => (hsettled hpending).2 ?_
  refine (p.perm _).mem_iff.mpr ((Table.mem_keys_iff _ _).mpr ?_)
  exact Option.isSome_iff_exists.mpr ⟨s, hs⟩

/-- A repaint is made due by an ATTACH to write. -/
theorem Evolves.resyncPending {d : Daemon} {id : SessionId} {a : Act} {s t : Session}
    (h : Evolves d id a s t) (hquiet : ∀ slot, ¬ Asks d a slot id false)
    (hpending : t.resyncPending = true) : s.resyncPending = true := by
  cases h with
  | steady hsteady => exact hsteady.resyncPending.symm.trans hpending
  | @attach m idx generation sessionId protocol observe _ hprotocol hid hmine =>
    cases observe with
    | true => exact hpending
    | false => exact absurd ⟨m, generation, sessionId, protocol, rfl, hprotocol, hid, hmine⟩ (hquiet idx)
  | release observe => exact (releaseRole_resyncPending observe s).symm.trans hpending
  | exit hsteady => exact hsteady.resyncPending.symm.trans hpending
  | fanout | queue => exact hpending
  | @flush _ qs _ x =>
    cases x with
    | none => exact hpending
    | some x =>
      have hleave : (x.leave id { s with outbound := qs }).resyncPending = s.resyncPending := by
        unfold Client.leave
        split
        case isTrue => exact releaseRole_resyncPending _ _
        case isFalse => rfl
      exact hleave.symm.trans hpending
  | skipResync => cases hpending
  | repaint => cases hpending

/-- A flush empties the queue of every leaf that still has a client. -/
theorem flush_empties {d d' : Daemon} (h : flushOutbound.exec d = (.ok (), d')) {id : SessionId}
    {c : Client} {t : Session} (hon : On d' id c t) : t.outbound = [] := by
  have heffect := (flushOutbound_ok h).1
  obtain ⟨hmem, hleaf, hsession⟩ := hon
  generalize d'.session = S at heffect hsession
  generalize d'.clients = C at heffect hmem
  have hempty : ∀ {c₀ : Client} {s : Session}, c₀ ∈ d.clients → c₀.leaf = some id →
      flushed d id = some s → s.outbound = [] := by
    intro c₀ s hc₀ hleaf₀ hs
    obtain ⟨s₀, hs₀, rfl⟩ := flushed_some hs
    exact if_pos (List.mem_filterMap.mpr ⟨c₀, hc₀, hleaf₀⟩)
  cases heffect with
  | idle hidle => exact hidle.elim
  | flush hsent =>
    obtain ⟨c₀, hc₀, rfl⟩ := List.mem_map.mp hmem
    exact hempty hc₀ ((hsent c₀ hc₀).leaf.symm.trans hleaf) hsession
  | @flushDrop g l₁ l₂ x hclients _ hsent =>
    obtain ⟨s, hs, rfl⟩ := Option.map_eq_some_iff.mp hsession
    have hs' : s.outbound = [] := by
      rcases List.mem_append.mp hmem with hfirst | hlast
      · obtain ⟨c₀, hc₀, rfl⟩ := List.mem_map.mp hfirst
        exact hempty (by simp [hclients, hc₀]) ((hsent c₀ hc₀).leaf.symm.trans hleaf) hs
      · exact hempty (by simp [hclients, hlast]) hleaf hs
    exact List.sublist_nil.mp (hs' ▸ leave_outbound x id s)

-- ---------------------------------------------------------------------------
-- Protocol 2
-- ---------------------------------------------------------------------------

/-- An ATTACH for protocol 2 that is let through is followed at once by one CHECKPOINT. -/
theorem attach_checkpoint {m : Moment} {idx : Nat} {generation : UInt64}
    {sessionId : Option UInt64} {observe : Bool} {d d' : Daemon} {id : SessionId} {c : Client}
    (hid : d.resolveAttach sessionId = some id)
    (hmine : d.attached id = true → observe = false → d.leafOf idx = some id)
    (hc : d.clients[idx]? = some c)
    (h : (dispatchFrame m idx (.attach generation sessionId protocol2 observe)).exec d =
      (.ok (), d')) :
    ∃ c' q, d'.clients = d.clients.set idx c' ∧ c'.log = c.log ++ [q] ∧
      isCheckpoint q.frame = true := by
  change (dispatchAttach m idx generation sessionId protocol2 observe).exec d = _ at h
  have hsupported : ¬ (!Frame.protocolSupported protocol2) = true := by decide
  have hlet : ¬ (d.attached id && !(decide (d.leafOf idx = some id)) && !observe) = true := by
    simp only [Bool.and_eq_true, Bool.not_eq_true', decide_eq_false_iff_not]
    exact fun ⟨⟨hheld, hother⟩, hobserve⟩ => hother (hmine hheld hobserve)
  rw [dispatchAttach, Op.exec_get_bind, if_neg hsupported, hid] at h
  dsimp only at h
  rw [if_neg hlet] at h
  obtain ⟨s, g, qs, -, -, -, hclients, hsent, hshown⟩ := acceptAttach_ok h
  rw [Shown, if_pos rfl] at hshown
  obtain ⟨grid, rfl⟩ := hshown
  exact ⟨g c, _, hclients.trans (modify_of_get hc g), (hsent c).log, rfl⟩

def Act.asksProtocol2 : Act → Bool
  | .frame _ _ (.attach _ _ protocol _) => protocol = protocol2
  | _ => false

theorem Queueable.not_checkpoint {s : Session} {q : Queued} (h : Queueable s q) :
    isCheckpoint q.frame = false := by
  cases h with
  | exit | refused | live | repaint => rfl

/-- No other act sends a CHECKPOINT. -/
theorem no_checkpoint {G : Daemon → Act → Prop} {turns : List Turn} {size : Winsize}
    {isWorker : Bool} {d₀ d d' : Daemon} {a : Act}
    (hbind : Daemon.bind (.spawn size turns) size isWorker = .ok d₀) (hrun : Runs Act.Takes G d₀ d)
    (htakes : a.Takes d d') (ha : a.asksProtocol2 = false) {c' : Client} (hc' : c' ∈ d'.clients) :
    (∃ stream, c' = .new stream) ∨
      ∃ c ∈ d.clients, ∃ qs, c'.log = c.log ++ qs ∧ ∀ q ∈ qs, isCheckpoint q.frame = false := by
  rcases htakes.effect.1.becomes hc' with hnew | ⟨c, hc, hbecomes⟩
  · exact .inl hnew
  · refine .inr ⟨c, hc, ?_⟩
    cases hbecomes with
    | stays hsent hqs =>
      refine ⟨_, hsent.log, fun q hq => ?_⟩
      obtain ⟨reason, rfl⟩ := hqs q hq
      rfl
    | @credits m idx f =>
      refine ⟨[], ?_, nofun⟩
      rw [(creditClient_role f c).2.2.2.1, List.append_nil]
    | @attaches m idx generation sessionId protocol observe id s _ _ qs _ hshown hsent =>
      have hp : protocol ≠ protocol2 := of_decide_eq_false ha
      refine ⟨qs, hsent.log, fun q hq => ?_⟩
      rw [Shown, if_neg hp] at hshown
      split at hshown
      case isTrue =>
        obtain rfl := hshown
        obtain rfl := List.mem_singleton.mp hq
        rfl
      case isFalse =>
        rw [hshown] at hq
        cases hq
    | @spends id s p got _ _ _ _ _ _ _ hsent =>
      refine ⟨_, hsent.log, fun q hq => ?_⟩
      obtain rfl := List.mem_singleton.mp hq
      dsimp only [Client.liveFrame]
      split
      case isTrue => rfl
      case isFalse => rfl
    | served hsent =>
      refine ⟨_, hsent.log, fun q hq => ?_⟩
      have hq' := List.mem_of_mem_filter hq
      unfold queued at hq'
      cases hs : c.leaf.bind d.session with
      | none =>
        rw [hs] at hq'
        cases hq'
      | some s =>
        rw [hs] at hq'
        obtain ⟨id, -, hid⟩ := Option.bind_eq_some_iff.mp hs
        exact (queueable_runs hbind hrun hid q hq').not_checkpoint

/-- In every undisturbed run: a protocol-1 writer has its repaint once since its attach, in the
outbox, queued or due; when it is there at the end of a step and nobody else asks to write the
leaf meanwhile, the next flush has put it in its outbox; and protocol 2 is sent one CHECKPOINT
by each ATTACH that is let through, and by nothing else. What was put in an outbox is the bytes
there and on the socket. -/
theorem writer_repainted {turns : List Turn} {size : Winsize} {isWorker : Bool} {d₀ d : Daemon}
    (hbind : Daemon.bind (.spawn size turns) size isWorker = .ok d₀)
    (hrun : Runs Act.Takes Undisturbed d₀ d) :
    AllWritten d ∧
      (∀ id c s, On d id c s → c.observe = false → c.protocol ≠ protocol2 → Painted c s) ∧
      (∀ p e, (step p).exec e = (.ok (), d) → ∀ id d₁ d₂,
        Runs Act.Takes (fun d a => Undisturbed d a ∧ ∀ slot, ¬ Asks d a slot id false) d d₁ →
        Undisturbed d₁ .flush → Act.Takes d₁ .flush d₂ →
        ∀ c s, On d₂ id c s → c.observe = false → c.protocol ≠ protocol2 →
          c.Written ∧ c.since.countP isRepaint = 1 ∧
            ∀ q ∈ c.since, isRepaint q = true → RepaintSince s.pty.taken c.attachedFrom q) ∧
      (∀ m idx generation sessionId observe id c d',
        Act.Takes d (.frame m idx (.attach generation sessionId protocol2 observe)) d' →
        d.resolveAttach sessionId = some id →
        (d.attached id = true → observe = false → d.leafOf idx = some id) →
        d.clients[idx]? = some c →
        ∃ c' q, d'.clients = d.clients.set idx c' ∧ c'.log = c.log ++ [q] ∧
          isCheckpoint q.frame = true) ∧
      ∀ a d', Act.Takes d a d' → a.asksProtocol2 = false → ∀ c' ∈ d'.clients,
        (∃ stream, c' = .new stream) ∨
          ∃ c ∈ d.clients, ∃ qs, c'.log = c.log ++ qs ∧ ∀ q ∈ qs, isCheckpoint q.frame = false := by
  have h₀ := (bind_ok hbind).1
  refine ⟨written_runs h₀ hrun, fun id c s h hobserve hprotocol =>
    painted_runs hbind hrun h hobserve hprotocol, ?_, ?_, ?_⟩
  · intro p e hstep id d₁ d₂ hquiet hguard hflush c s h hobserve hprotocol
    have hrun₁ : Runs Act.Takes Undisturbed d₀ d₁ := hrun.trans (hquiet.mono fun _ _ h => h.1)
    have hrun₂ : Runs Act.Takes Undisturbed d₀ d₂ := hrun₁.tail ⟨.flush, hguard, hflush⟩
    have hpainted := painted_runs hbind hrun₂ h hobserve hprotocol
    have hempty : s.outbound = [] := flush_empties hflush.2 h
    have hpending : s.resyncPending = false := by
      have hsettled : ∀ i t, d.session i = some t → i = id → t.resyncPending = false :=
        fun i t ht _ => step_settles hstep ht
      have hasks : ∀ slot, ¬ Asks d₁ .flush slot id false := by
        rintro slot ⟨_, _, _, _, hflush, -⟩
        cases hflush
      refine sessions_runs (K := fun i t => i = id → t.resyncPending = false) hsettled
        (fun _ _ _ _ => rfl) ?_ (hquiet.tail ⟨.flush, ⟨hguard, hasks⟩, hflush⟩) id s h.session rfl
      rintro e a i t t' - ⟨-, hnoAsk⟩ ht hevolves rfl
      exact Bool.eq_false_iff.mpr fun hpending => by
        have hwas := hevolves.resyncPending hnoAsk hpending
        rw [ht rfl] at hwas
        cases hwas
    have honce := hpainted.once
    rw [hempty, hpending] at honce
    exact ⟨written_runs h₀ hrun₂ c h.mem, honce,
      fun q hq => hpainted.since q (List.mem_append_left _ hq)⟩
  · exact fun m idx generation sessionId observe id c d' htakes hid hmine hc =>
      attach_checkpoint hid hmine hc htakes.2
  · exact fun a d' htakes ha c' hc' => no_checkpoint hbind hrun htakes ha hc'

/-- A writer that attaches to a leaf that has run unattended. -/
theorem writer_repainted_alone :
    ∃ d₀ d, Daemon.bind (.spawn ⟨1, 1, 0, 0⟩ [⟨[97, 98, 99], none, none, none⟩]) ⟨1, 1, 0, 0⟩ true =
        .ok d₀ ∧ Runs Act.Takes Undisturbed d₀ d ∧
      ∃ c s, On d ⟨1⟩ c s ∧ c.since.length = 1 ∧ s.history = [97, 98, 99] ∧ c.Written ∧
        Painted c s := by
  obtain ⟨d₀, d, hbind, hrun, hfound⟩ := exists_follow (G := Undisturbed)
    [⟨[97, 98, 99], none, none, none⟩] ⟨1, 1, 0, 0⟩ true
    [.drain ⟨1⟩, .accept (.of [] [] []),
      .frame ⟨0, 3600⟩ 0 (.attach 1 none protocolVersion false), .resync ⟨1⟩, .flush]
    (p := fun d => d.clients.any (fun c => c.isWriter ⟨1⟩ && c.protocol ≠ protocol2 &&
      c.since.length = 1) && (d.session ⟨1⟩).any fun s => s.history = [97, 98, 99])
    (by decide +kernel)
  simp only [Bool.and_eq_true, List.any_eq_true, Option.any_eq_true, decide_eq_true_eq] at hfound
  obtain ⟨⟨c, hc, ⟨hwriter, hprotocol⟩, hlen⟩, s, hs, hhistory⟩ := hfound
  obtain ⟨hleaf, hobserve⟩ := Client.isWriter_iff.mp hwriter
  have hon : On d ⟨1⟩ c s := ⟨hc, hleaf, hs⟩
  obtain ⟨hwritten, hpainted, -⟩ := writer_repainted hbind hrun
  exact ⟨d₀, d, hbind, hrun, c, s, hon, hlen, hhistory, hwritten c hon.mem,
    hpainted ⟨1⟩ c s hon hobserve hprotocol⟩

/-- A writer that attaches beside a protocol-2 observer is not repainted in the next two steps. -/
theorem writer_unpainted :
    ∃ d, after [⟨[97, 98, 99], none, none, none⟩] ⟨1, 1, 0, 0⟩ false
        [{ Poll.quiet with
            accept := .ok (some (.of [.attach 1 none protocol2 true, .credit 10] [] [])) },
          { Poll.quiet with
            ready := fun _ => true
            readable := fun _ => true
            accept := .ok (some (.of [.attach 2 none protocolVersion false] [] [])) },
          { Poll.quiet with ready := fun idx => idx = 1 }, Poll.quiet, Poll.quiet] = .ok d ∧
      ∃ c s, On d ⟨1⟩ c s ∧ c.observe = false ∧ c.protocol ≠ protocol2 ∧
        s.history = [97, 98, 99] ∧ s.resyncPending = false ∧ s.outbound = [] ∧ c.log = [] := by
  refine exists_after (p := fun d => d.clients.any (fun c => c.isWriter ⟨1⟩ &&
      c.protocol ≠ protocol2 && c.log = []) && (d.session ⟨1⟩).any fun s =>
        s.history = [97, 98, 99] && !s.resyncPending && s.outbound = [])
    (by decide +kernel) fun d hfound => ?_
  simp only [Bool.and_eq_true, List.any_eq_true, Option.any_eq_true, decide_eq_true_eq,
    Bool.not_eq_true'] at hfound
  obtain ⟨⟨c, hc, ⟨hwriter, hprotocol⟩, hlog⟩, s, hs, ⟨hhistory, hpending⟩, hqueue⟩ := hfound
  obtain ⟨hleaf, hobserve⟩ := Client.isWriter_iff.mp hwriter
  exact ⟨c, s, ⟨hc, hleaf, hs⟩, hobserve, hprotocol, hhistory, hpending, hqueue, hlog⟩

end Rill.Daemon
