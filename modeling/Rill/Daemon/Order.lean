import Rill.Daemon.Credit
import Rill.Daemon.Repaints

/-!
# Repaints and live output, in order

In worker mode output goes straight to the outboxes, while a repaint waits in the
queue of its leaf for the next flush. Where the leaf is not read meanwhile, a repaint
comes after all that it shows and before all that it does not.
-/

namespace Rill.Daemon

open Lib Attach Kernel

def repaintedTo (q : Queued) : Option Nat :=
  match q.origin with
  | .repaint upTo => some upTo
  | _ => none

theorem repaintedTo_eq_some {q : Queued} {upTo : Nat} :
    repaintedTo q = some upTo ↔ q.origin = .repaint upTo := by
  unfold repaintedTo
  split
  case h_1 u horigin => rw [horigin, Option.some.injEq, Origin.repaint.injEq]
  case h_2 hother => exact ⟨nofun, fun horigin => absurd horigin (hother upTo)⟩

/-- Behind every repaint there is, live, just what was read since it was made. -/
def InOrder (stream : List UInt8) (qs : List Queued) : Prop :=
  ∀ l₁ q l₂ upTo, qs = l₁ ++ q :: l₂ → repaintedTo q = some upTo →
    upTo ≤ stream.length ∧ live l₂ = stream.drop upTo

theorem InOrder.nil (stream : List UInt8) : InOrder stream [] := by
  intro l₁ q l₂ upTo h
  cases l₁ with
  | nil => cases h
  | cons => cases h

/-- What is sent next is what was read next. -/
theorem InOrder.append {stream got : List UInt8} {qs rs : List Queued} (h : InOrder stream qs)
    (hlive : live rs = got)
    (hrepaint : ∀ q ∈ rs, ∀ upTo ∈ repaintedTo q, got = [] ∧ upTo = stream.length) :
    InOrder (stream ++ got) (qs ++ rs) := by
  intro l₁ q l₂ upTo hsplit hq
  rcases List.append_eq_append_iff.mp hsplit with ⟨k, rfl, hk⟩ | ⟨k, rfl, hk⟩
  · -- the repaint is among the new ones
    have hmem : q ∈ rs := hk ▸ List.mem_append_right _ List.mem_cons_self
    obtain ⟨rfl, rfl⟩ := hrepaint q hmem upTo hq
    rw [hk, live_append, List.append_eq_nil_iff] at hlive
    have htail : live l₂ = [] := (List.append_eq_nil_iff.mp hlive.2).2
    rw [List.append_nil, List.drop_length]
    exact ⟨Nat.le_refl _, htail⟩
  · cases k with
    | nil =>
      rw [List.nil_append] at hk
      have hmem : q ∈ rs := hk ▸ List.mem_cons_self
      obtain ⟨rfl, rfl⟩ := hrepaint q hmem upTo hq
      rw [← hk] at hlive
      have htail : live l₂ = [] := (List.append_eq_nil_iff.mp hlive).2
      rw [List.append_nil, List.drop_length]
      exact ⟨Nat.le_refl _, htail⟩
    | cons q' k =>
      obtain ⟨rfl, rfl⟩ := List.cons.inj hk
      obtain ⟨hle, hbehind⟩ := h l₁ q k upTo rfl hq
      change _ ∧ live (k ++ rs) = _
      rw [live_append, hbehind, hlive, List.drop_append_of_le_length hle, List.length_append]
      exact ⟨by omega, rfl⟩

-- ---------------------------------------------------------------------------
-- What keeps the order
-- ---------------------------------------------------------------------------

def UpToDate (s : Session) : Prop :=
  ∀ q ∈ s.outbound, ∀ upTo ∈ repaintedTo q, upTo = s.pty.taken.length

instance (s : Session) : Decidable (UpToDate s) :=
  inferInstanceAs (Decidable (∀ q ∈ s.outbound, ∀ upTo ∈ repaintedTo q, _))

/-- A leaf is not read to a writer whose repaint is queued. -/
abbrev ReadsAfter (d : Daemon) (id : SessionId) : Prop :=
  ∀ s ∈ d.session id, ∀ c ∈ d.clients, c.isWriter id = true → c.protocol ≠ protocol2 →
    0 < c.credit → ∀ q ∈ s.outbound, repaintedTo q = none

/-- A writer attaches where no repaint is queued from before the last read. -/
abbrev AttachesAfter (d : Daemon) (idx : Nat) (sessionId : Option UInt64) (protocol : UInt8) :
    Prop :=
  ∀ c ∈ d.clients[idx]?, ∀ id ∈ d.resolveAttach sessionId, ∀ s ∈ d.session id,
    protocol ≠ protocol2 → c.hasRole id false protocol = true ∨ UpToDate s

def Unhurried (d : Daemon) : Act → Prop
  | .drain id => ReadsAfter d id
  | .frame _ idx (.attach _ sessionId protocol false) => AttachesAfter d idx sessionId protocol
  | _ => True

instance (d : Daemon) : (a : Act) → Decidable (Unhurried d a)
  | .drain id => inferInstanceAs (Decidable (ReadsAfter d id))
  | .frame _ idx (.attach _ sessionId protocol false) =>
    inferInstanceAs (Decidable (AttachesAfter d idx sessionId protocol))
  | .frame _ _ (.attach _ _ _ true) | .frame _ _ (.credit _) | .frame _ _ (.data _)
  | .frame _ _ (.resize ..) | .frame _ _ (.exit _) | .frame _ _ (.refused _)
  | .frame _ _ (.checkpoint ..) | .frame _ _ (.delta ..) | .frame _ _ .resyncRequest
  | .accept _ | .spawn _ | .fetch _ | .reap .. | .flush | .resync _ => instDecidableTrue

theorem UpToDate.queue {s t : Session} {qs : List Queued} (h : UpToDate s)
    (htaken : t.pty.taken = s.pty.taken) (hqueue : t.outbound = s.outbound ++ qs)
    (hqs : ∀ q ∈ qs, ∀ upTo ∈ repaintedTo q, upTo = s.pty.taken.length) : UpToDate t := by
  intro q hq
  rw [hqueue] at hq
  rw [htaken]
  rcases List.mem_append.mp hq with hold | hnew
  · exact h q hold
  · exact hqs q hnew

theorem UpToDate.sublist {s t : Session} (h : UpToDate s) (htaken : t.pty.taken = s.pty.taken)
    (hqueue : t.outbound.Sublist s.outbound) : UpToDate t := by
  intro q hq
  rw [htaken]
  exact h q (hqueue.subset hq)

/-- What was sent to the writer is in order, and what is queued for it will be. -/
def Orderly (c : Client) (s : Session) : Prop := InOrder s.pty.taken c.since ∧ UpToDate s

theorem InOrder.quiet {stream stream' : List UInt8} {qs qs' rs : List Queued}
    (h : InOrder stream qs) (hstream : stream' = stream) (hqs : qs' = qs ++ rs) (hlive : live rs = [])
    (hrepaint : ∀ q ∈ rs, ∀ upTo ∈ repaintedTo q, upTo = stream.length) : InOrder stream' qs' := by
  have happend := h.append hlive fun q hq upTo hupTo => ⟨rfl, hrepaint q hq upTo hupTo⟩
  rwa [List.append_nil, ← hqs, ← hstream] at happend

theorem repaintedTo_control {qs : List Queued} (h : ∀ q ∈ qs, q.origin = .control) :
    ∀ q ∈ qs, ∀ {n : Nat}, ∀ upTo ∈ repaintedTo q, upTo = n := by
  intro q hq n upTo hupTo
  rw [Option.mem_def, repaintedTo_eq_some, h q hq] at hupTo
  cases hupTo

theorem Orderly.quiet {c c' : Client} {s t : Session} {qs qs' : List Queued} (h : Orderly c s)
    (htaken : t.pty.taken = s.pty.taken) (hqueue : t.outbound = s.outbound ++ qs)
    (hqs : ∀ q ∈ qs, q.origin = .control) (hsince : c'.since = c.since ++ qs')
    (hqs' : ∀ q ∈ qs', q.origin = .control) : Orderly c' t :=
  ⟨h.1.quiet htaken hsince (live_control hqs') fun q hq => repaintedTo_control hqs' q hq,
    h.2.queue htaken hqueue fun q hq => repaintedTo_control hqs q hq⟩

/-- In worker mode, in every unhurried run, what a protocol-1 writer was sent is in order. -/
theorem orderly_runs {turns : List Turn} {size : Winsize} {d₀ d : Daemon}
    (hbind : Daemon.bind (.spawn size turns) size true = .ok d₀)
    (hrun : Runs Act.Takes Unhurried d₀ d) {id : SessionId} {c : Client} {s : Session}
    (h : On d id c s) (hobserve : c.observe = false) (hprotocol : c.protocol ≠ protocol2) :
    Orderly c s := by
  have h₀ := (bind_ok hbind).1
  refine moved_runs (I := fun _ c s => c.observe = false → c.protocol ≠ protocol2 → Orderly c s)
    h₀ ?_ hrun id c s h hobserve hprotocol
  intro d a id c' s' hrun hguard hall hmoved hobserve hprotocol
  have hle : ∀ {c s}, On d id c s → c.attachedAt ≤ c.log.length := attachedAt_runs h₀ hrun
  have hworker : d.isWorker = true := (isWorker_runs hrun).trans (bind_ok hbind).2.1
  have hwriter : ∀ {c s}, On d id c s → c.observe = false → c.isWriter id = true :=
    fun h hobserve => Client.isWriter_iff.mpr ⟨h.leaf, hobserve⟩
  cases hmoved with
  | @keep _ f c _ s _ qs h hsteady hsent hqs =>
    obtain ⟨hobs, hproto, -⟩ := hsent.role_credit
    have hbefore := hall id c s h (hobs.trans hobserve) (hproto ▸ hprotocol)
    refine hbefore.quiet hsteady.pty.taken (hsteady.outbound.trans (List.append_nil _).symm) nofun
      (hsent.since_credit (hle h)) fun q hq => ?_
    obtain ⟨reason, rfl⟩ := hqs q hq
    rfl
  | @joins m idx generation sessionId protocol observe c _ s shown hc hs _ hid _ hshown hsent =>
    have htaken := congrArg Pty.taken (attach_stream s m generation observe).1
    obtain ⟨qs, hqueue, hqs⟩ := attach_queue s m generation observe
    obtain ⟨rfl, hp, rfl⟩ := hsent.writer_attachTo hshown hobserve hprotocol
    have hsince := hsent.since_attachTo fun hrole => hle (.of_hasRole hc hs hrole)
    by_cases hrole : c.hasRole id false protocol = true
    · rw [if_pos hrole] at hsince
      obtain ⟨-, hobs, hproto⟩ := Client.hasRole_iff.mp hrole
      have hbefore := hall id c s (.of_hasRole hc hs hrole) hobs (hproto ▸ hp)
      exact hbefore.quiet htaken hqueue hqs hsince nofun
    · rw [if_neg hrole] at hsince
      have hfresh := (hguard c hc id hid s hs hp).resolve_left hrole
      refine ⟨?_, hfresh.queue htaken hqueue fun q hq => repaintedTo_control hqs q hq⟩
      rw [hsince]
      exact .nil _
  | @joined m idx generation sessionId protocol observe _ s h =>
    have htaken := congrArg Pty.taken (attach_stream s m generation observe).1
    obtain ⟨qs, hqueue, hqs⟩ := attach_queue s m generation observe
    exact (hall id c' s h hobserve hprotocol).quiet htaken hqueue hqs (List.append_nil _).symm nofun
  | @left _ _ s _ h hleft =>
    obtain ⟨horder, hfresh⟩ := hall id c' s h hobserve hprotocol
    exact ⟨horder.quiet hleft.taken (List.append_nil _).symm rfl nofun,
      hfresh.sublist hleft.taken hleft.outbound⟩
  | @exit m _ s t status h hsteady =>
    obtain ⟨qs, hqueue, hqs⟩ := observeExit_queue t status
    rw [hsteady.outbound] at hqueue
    exact (hall id c' s h hobserve hprotocol).quiet hsteady.pty.taken hqueue hqs
      (List.append_nil _).symm nofun
  | @fanout c _ s p got h _ hgot hgives hcredit hsent =>
    have hp : c.protocol ≠ protocol2 := by
      rw [hsent.protocol] at hprotocol
      exact hprotocol
    have hobs := hsent.observe.symm.trans hobserve
    have hpos : 0 < c.credit := Nat.lt_of_lt_of_le (List.length_pos_iff.mpr hgot) hcredit
    have hnone := hguard s h.session c h.mem (hwriter h hobs) hp hpos
    have htaken : (({ s with pty := p } : Session).deliver got).pty.taken = s.pty.taken ++ got :=
      hgives.taken
    refine ⟨?_, fun q hq upTo hupTo => ?_⟩
    · rw [hsent.since_spend (hle h), htaken]
      refine (hall id c s h hobs hp).1.append (live_liveFrame c _ _ got) fun q hq upTo hupTo => ?_
      obtain rfl := List.mem_singleton.mp hq
      cases hupTo
    · rw [hnone q hq] at hupTo
      cases hupTo
  | short h _ _ _ _ hshort => exact absurd (hshort (hwriter h hobserve)) hprotocol
  | queue _ hpath =>
    rw [hworker, Bool.or_true] at hpath
    cases hpath
  | @flush c _ s _ h hsent hleft =>
    have hp : c.protocol ≠ protocol2 := by
      rw [hsent.protocol] at hprotocol
      exact hprotocol
    obtain ⟨horder, hfresh⟩ := hall id c s h (hsent.observe.symm.trans hobserve) hp
    have hsince := hsent.since (hle h)
    rw [due_protocol1 hp] at hsince
    refine ⟨horder.quiet hleft.taken hsince (live_eq_nil (live_not_queued hbind hrun h.session)) hfresh, ?_⟩
    exact hfresh.sublist hleft.taken (hleft.outbound.trans (List.nil_sublist _))
  | @lost _ _ _ _ s _ h _ _ _ hleft =>
    obtain ⟨horder, hfresh⟩ := hall id c' s h hobserve hprotocol
    exact ⟨horder.quiet hleft.taken (List.append_nil _).symm rfl nofun,
      hfresh.sublist hleft.taken (hleft.outbound.trans (List.nil_sublist _))⟩
  | @skipResync _ s h =>
    exact (hall id c' s h hobserve hprotocol).quiet rfl (List.append_nil _).symm nofun
      (List.append_nil _).symm nofun
  | @repaint _ s bytes h =>
    obtain ⟨horder, hfresh⟩ := hall id c' s h hobserve hprotocol
    have hnew : ∀ q ∈ [(⟨.data bytes, .repaint s.pty.taken.length⟩ : Queued)],
        ∀ upTo ∈ repaintedTo q, upTo = s.pty.taken.length := by
      intro q hq upTo hupTo
      obtain rfl := List.mem_singleton.mp hq
      exact (Option.some.inj hupTo).symm
    exact ⟨horder, hfresh.queue rfl rfl hnew⟩

/-- In worker mode, in every unhurried run, what a protocol-1 writer was sent is the bytes on its
socket and in its outbox, and whatever repaint is in it comes behind just the live output, since its
attach, that it shows, and before all that it does not. -/
theorem repaint_in_order {turns : List Turn} {size : Winsize} {d₀ d : Daemon}
    (hbind : Daemon.bind (.spawn size turns) size true = .ok d₀)
    (hrun : Runs Act.Takes Unhurried d₀ d) {id : SessionId} {c : Client} {s : Session}
    (h : On d id c s) (hobserve : c.observe = false) (hprotocol : c.protocol ≠ protocol2) :
    c.Written ∧ ∀ l₁ q l₂ upTo, c.since = l₁ ++ q :: l₂ → q.origin = .repaint upTo →
      c.attachedFrom ≤ upTo ∧ upTo ≤ s.pty.taken.length ∧
        live l₁ = (s.pty.taken.take upTo).drop c.attachedFrom ∧ live l₂ = s.pty.taken.drop upTo := by
  refine ⟨written_runs (bind_ok hbind).1 hrun c h.mem, ?_⟩
  intro l₁ q l₂ upTo hsplit horigin
  obtain ⟨hle, hbehind⟩ := (orderly_runs hbind hrun h hobserve hprotocol).1 l₁ q l₂ upTo hsplit
    (repaintedTo_eq_some.mpr horigin)
  obtain ⟨hfrom, hlive, -⟩ := lossless_runs hbind hrun h hobserve hprotocol
  have hq : liveBytes q = [] := liveBytes_of_not_live fun start hstart => by
    rw [horigin] at hstart
    cases hstart
  have hcons : live (q :: l₂) = live l₂ := congrArg (· ++ live l₂) hq
  rw [hsplit, live_append, hcons, hbehind] at hlive
  have hlength := congrArg List.length hlive
  rw [List.length_append, List.length_drop, List.length_drop] at hlength
  have hstart : c.attachedFrom ≤ upTo := by omega
  refine ⟨hstart, hle, ?_, hbehind⟩
  have hwhole : s.pty.taken.drop c.attachedFrom =
      (s.pty.taken.take upTo).drop c.attachedFrom ++ s.pty.taken.drop upTo := by
    rw [← List.drop_append_of_le_length (by rw [List.length_take]; omega), List.take_append_drop]
  rw [hwhole] at hlive
  exact List.append_cancel_right hlive

theorem repaint_in_order_between :
    ∃ d₀ d, Daemon.bind (.spawn ⟨1, 1, 0, 0⟩ [⟨[97, 98], none, none, none⟩,
        ⟨[99], none, none, none⟩]) ⟨1, 1, 0, 0⟩ true = .ok d₀ ∧ Runs Act.Takes Unhurried d₀ d ∧
      ∃ c s, On d ⟨1⟩ c s ∧ c.since.map Queued.origin = [.repaint 2, .live 2] ∧
        c.Written ∧ ∀ l₁ q l₂ upTo, c.since = l₁ ++ q :: l₂ → q.origin = .repaint upTo →
          c.attachedFrom ≤ upTo ∧ upTo ≤ s.pty.taken.length ∧
            live l₁ = (s.pty.taken.take upTo).drop c.attachedFrom ∧
              live l₂ = s.pty.taken.drop upTo := by
  obtain ⟨d₀, d, hbind, hrun, hfound⟩ := exists_follow (G := Unhurried)
    [⟨[97, 98], none, none, none⟩, ⟨[99], none, none, none⟩] ⟨1, 1, 0, 0⟩ true
    [.drain ⟨1⟩, .accept (.of [] [] []),
      .frame ⟨0, 3600⟩ 0 (.attach 1 none protocolVersion false), .frame ⟨0, 3600⟩ 0 (.credit 9),
      .resync ⟨1⟩, .flush, .drain ⟨1⟩]
    (p := fun d => d.clients.any (fun c => c.isWriter ⟨1⟩ && c.protocol ≠ protocol2 &&
      c.since.map Queued.origin = [.repaint 2, .live 2]) && (d.session ⟨1⟩).isSome)
    (by decide +kernel)
  simp only [Bool.and_eq_true, List.any_eq_true, decide_eq_true_eq] at hfound
  obtain ⟨⟨c, hc, ⟨hwriter, hprotocol⟩, horigins⟩, hs⟩ := hfound
  obtain ⟨hleaf, hobserve⟩ := Client.isWriter_iff.mp hwriter
  obtain ⟨s, hs⟩ := Option.isSome_iff_exists.mp hs
  have hon : On d ⟨1⟩ c s := ⟨hc, hleaf, hs⟩
  exact ⟨d₀, d, hbind, hrun, c, s, hon, horigins,
    repaint_in_order hbind hrun hon hobserve hprotocol⟩

/-- The leaf is read in the step between the resync and its flush, and the repaint comes after
what is newer. -/
theorem repaint_after_newer :
    ∃ d, after [⟨[97, 98], none, none, none⟩, .quiet, .quiet, .quiet, ⟨[99], none, none, none⟩]
        ⟨1, 1, 0, 0⟩ true
        [{ Poll.quiet with
            readable := fun _ => true
            accept := .ok (some (.of [.attach 1 none protocolVersion false, .credit 9] [] [])) },
          { Poll.quiet with ready := fun _ => true },
          { Poll.quiet with readable := fun _ => true }] = .ok d ∧
      ∃ c ∈ d.clients, c.isWriter ⟨1⟩ = true ∧ c.protocol ≠ protocol2 ∧
        c.since.map Queued.origin = [.live 2, .repaint 2] ∧ live c.since = [99] := by
  refine exists_after (p := fun d => d.clients.any fun c => c.isWriter ⟨1⟩ &&
    c.protocol ≠ protocol2 && c.since.map Queued.origin = [.live 2, .repaint 2] &&
      live c.since = [99]) (by decide +kernel) fun d hfound => ?_
  simp only [List.any_eq_true, Bool.and_eq_true, decide_eq_true_eq] at hfound
  obtain ⟨c, hc, ⟨⟨hwriter, hprotocol⟩, horigins⟩, hlive⟩ := hfound
  exact ⟨c, hc, hwriter, hprotocol, horigins, hlive⟩

end Rill.Daemon
