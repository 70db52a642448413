import Rill.Daemon.Streams
import Rill.Daemon.Written

/-!
# Credit

What of a leaf's output a client is sent live, against the output itself and
against the credit the client has granted.
-/

namespace Rill.Daemon

open Lib Attach Kernel

-- ---------------------------------------------------------------------------
-- Live output
-- ---------------------------------------------------------------------------

def liveBytes (q : Queued) : List UInt8 :=
  match q.origin, q.frame with
  | .live _, .data bytes => bytes
  | .live _, .delta _ bytes => bytes
  | _, _ => []

def live (qs : List Queued) : List UInt8 := qs.flatMap liveBytes

@[simp] theorem live_append (qs qs' : List Queued) : live (qs ++ qs') = live qs ++ live qs' :=
  List.flatMap_append

theorem liveBytes_of_not_live {q : Queued} (h : ∀ start, q.origin ≠ .live start) :
    liveBytes q = [] := by
  unfold liveBytes
  split
  case h_1 start _ horigin _ => exact absurd horigin (h start)
  case h_2 start _ _ horigin _ => exact absurd horigin (h start)
  case h_3 => rfl

theorem live_eq_nil {qs : List Queued} (h : ∀ q ∈ qs, ∀ start, q.origin ≠ .live start) :
    live qs = [] :=
  List.flatMap_eq_nil_iff.mpr fun q hq => liveBytes_of_not_live (h q hq)

theorem live_control {qs : List Queued} (h : ∀ q ∈ qs, q.origin = .control) : live qs = [] := by
  refine live_eq_nil fun q hq start horigin => ?_
  rw [h q hq] at horigin
  cases horigin

theorem live_liveFrame (c : Client) (offset start : Nat) (bytes : List UInt8) :
    live [⟨c.liveFrame offset bytes, .live start⟩] = bytes := by
  unfold Client.liveFrame
  split
  case isTrue => exact List.append_nil bytes
  case isFalse => exact List.append_nil bytes

theorem live_since_le (c : Client) : (live c.since).length ≤ (live c.log).length := by
  rw [← List.take_append_drop c.attachedAt c.log, live_append, List.length_append]
  exact Nat.le_add_left _ _

theorem Shown.live {s : Session} {observe : Bool} {protocol : UInt8} {qs : List Queued}
    (h : Shown s observe protocol qs) : live qs = [] := by
  refine live_eq_nil fun q hq start horigin => ?_
  rw [(h.repaint q hq).2] at horigin
  cases horigin

theorem live_refused {qs : List Queued}
    (h : ∀ q ∈ qs, ∃ reason, q = ⟨.refused reason, .control⟩) : live qs = [] := by
  refine live_eq_nil fun q hq start horigin => ?_
  obtain ⟨reason, rfl⟩ := h q hq
  cases horigin

theorem live_due {c : Client} {qs : List Queued}
    (h : ∀ q ∈ qs, ∀ start, q.origin ≠ .live start) : live (c.due qs) = [] :=
  live_eq_nil fun q hq => h q (List.mem_of_mem_filter hq)

-- ---------------------------------------------------------------------------
-- Credit spent
-- ---------------------------------------------------------------------------

namespace Client

/-- What was sent live was paid for, and the rest of what was granted is left. -/
def Solvent (c : Client) : Prop := (live c.log).length + c.credit ≤ c.granted

theorem Solvent.sent {c c' : Client} {qs : List Queued} (h : c.Solvent) (hsent : c.Sent c' qs)
    (hlive : live qs = []) : c'.Solvent := by
  rw [Solvent, hsent.log, hsent.credit, hsent.granted, live_append, hlive, List.append_nil]
  exact h

theorem Solvent.addCredit {c : Client} (h : c.Solvent) (n : UInt32) : (c.addCredit n).Solvent := by
  unfold Solvent at h ⊢
  dsimp only [Client.addCredit]
  omega

theorem Solvent.creditClient {c : Client} (h : c.Solvent) (f : Frame) :
    (creditClient f c).Solvent := by
  unfold Daemon.creditClient
  split
  case h_1 n => exact h.addCredit n
  case h_2 => exact h

theorem Solvent.attachTo {c : Client} (h : c.Solvent) (id : SessionId) (observe : Bool)
    (protocol : UInt8) (taken : Nat) : (c.attachTo id observe protocol taken).Solvent := h

theorem Solvent.spend {c c' : Client} {qs : List Queued} (h : c.Solvent)
    (hcredit : (live qs).length ≤ c.credit) (hsent : (c.spend (live qs).length).Sent c' qs) :
    c'.Solvent := by
  unfold Solvent at h ⊢
  rw [hsent.log, hsent.credit, hsent.granted, live_append, List.length_append]
  dsimp only [Client.spend]
  omega

end Client

/-- In worker mode every client has paid for what it was sent. -/
theorem solvent_runs {G : Daemon → Act → Prop} {turns : List Turn} {size : Winsize} {d₀ d : Daemon}
    (hbind : Daemon.bind (.spawn size turns) size true = .ok d₀) (hrun : Runs Act.Takes G d₀ d) :
    ∀ c ∈ d.clients, c.Solvent := by
  refine clients_runs (bind_ok hbind).1 (fun _ => Nat.le_refl 0) ?_ hrun
  intro d a c c' hrun _ _ h hbecomes
  cases hbecomes with
  | stays hsent hqs => exact h.sent hsent (live_refused hqs)
  | credits => exact h.creditClient _
  | attaches _ hshown hsent =>
    exact (h.attachTo _ _ _ _).sent hsent hshown.live
  | @spends id s p got _ _ _ _ _ _ hcredit hsent =>
    have hlive := live_liveFrame c (min (s.bytesDelivered + got.length) u64Max)
      s.pty.taken.length got
    exact h.spend (by rw [hlive]; exact hcredit) (by rw [hlive]; exact hsent)
  | served hsent =>
    refine h.sent hsent (live_due fun q hq start => ?_)
    unfold queued at hq
    cases hs : c.leaf.bind d.session with
    | none =>
      rw [hs] at hq
      cases hq
    | some s =>
      rw [hs] at hq
      obtain ⟨id, -, hid⟩ := Option.bind_eq_some_iff.mp hs
      exact live_not_queued hbind hrun hid q hq start

-- ---------------------------------------------------------------------------
-- The writer of a worker's leaf
-- ---------------------------------------------------------------------------

/-- The client was sent, as DATA, all that was read from its leaf since its attach. -/
structure Lossless (c : Client) (s : Session) : Prop where
  from_le : c.attachedFrom ≤ s.pty.taken.length
  live : live c.since = s.pty.taken.drop c.attachedFrom
  data : ∀ q ∈ c.since, ∀ start, q.origin = .live start → q.frame.isData

theorem Lossless.quiet {c c' : Client} {s t : Session} {qs : List Queued} (h : Lossless c s)
    (htaken : t.pty.taken = s.pty.taken) (hfrom : c'.attachedFrom = c.attachedFrom)
    (hsince : c'.since = c.since ++ qs) (hqs : ∀ q ∈ qs, ∀ start, q.origin ≠ .live start) :
    Lossless c' t where
  from_le := by
    rw [hfrom, htaken]
    exact h.from_le
  live := by rw [hsince, live_append, live_eq_nil hqs, List.append_nil, hfrom, htaken, h.live]
  data q hq start horigin := by
    rw [hsince] at hq
    rcases List.mem_append.mp hq with hold | hnew
    · exact h.data q hold start horigin
    · exact absurd horigin (hqs q hnew start)

theorem Lossless.send {c c' : Client} {s t : Session} {bytes : List UInt8} {start : Nat}
    (h : Lossless c s) (htaken : t.pty.taken = s.pty.taken ++ bytes)
    (hfrom : c'.attachedFrom = c.attachedFrom)
    (hsince : c'.since = c.since ++ [⟨.data bytes, .live start⟩]) : Lossless c' t where
  from_le := by
    rw [hfrom, htaken, List.length_append]
    exact Nat.le_trans h.from_le (Nat.le_add_right _ _)
  live := by
    have hone : Daemon.live [⟨.data bytes, .live start⟩] = bytes := List.append_nil bytes
    rw [hsince, live_append, hone, h.live, hfrom, htaken, List.drop_append_of_le_length h.from_le]
  data q hq start horigin := by
    rw [hsince] at hq
    rcases List.mem_append.mp hq with hold | hnew
    · exact h.data q hold start horigin
    · obtain rfl := List.mem_singleton.mp hnew
      rfl

/-- In worker mode, in every state, what a protocol-1 writer was sent live since its attach
is what was read from the leaf since then. -/
theorem lossless_runs {G : Daemon → Act → Prop} {turns : List Turn} {size : Winsize} {d₀ d : Daemon}
    (hbind : Daemon.bind (.spawn size turns) size true = .ok d₀) (hrun : Runs Act.Takes G d₀ d)
    {id : SessionId} {c : Client} {s : Session} (h : On d id c s) (hobserve : c.observe = false)
    (hprotocol : c.protocol ≠ protocol2) : Lossless c s := by
  have h₀ := (bind_ok hbind).1
  refine moved_runs (I := fun _ c s => c.observe = false → c.protocol ≠ protocol2 → Lossless c s)
    h₀ ?_ hrun id c s h hobserve hprotocol
  intro d a id c' s' hrun _ hall hmoved hobserve hprotocol
  have hle : ∀ {c s}, On d id c s → c.attachedAt ≤ c.log.length := attachedAt_runs h₀ hrun
  have hworker : d.isWorker = true := (isWorker_runs hrun).trans (bind_ok hbind).2.1
  cases hmoved with
  | @keep _ f c _ s _ qs h hsteady hsent hqs =>
    obtain ⟨hobs, hproto, hfrom⟩ := hsent.role_credit
    have hbefore := hall id c s h (hobs.trans hobserve) (hproto ▸ hprotocol)
    refine hbefore.quiet hsteady.pty.taken hfrom
      (hsent.since_credit (hle h)) fun q hq start horigin => ?_
    obtain ⟨reason, rfl⟩ := hqs q hq
    cases horigin
  | @joins m idx generation sessionId protocol observe c _ s qs hc hs _ _ _ hshown hsent =>
    have htaken := congrArg Pty.taken (attach_stream s m generation observe).1
    obtain ⟨rfl, hp, rfl⟩ := hsent.writer_attachTo hshown hobserve hprotocol
    have hsince := hsent.since_attachTo fun hrole => hle (.of_hasRole hc hs hrole)
    by_cases hrole : c.hasRole id false protocol = true
    · rw [if_pos hrole] at hsince
      have hfrom : c'.attachedFrom = c.attachedFrom := by
        rw [hsent.attachedFrom, Client.attachTo, if_pos hrole]
      obtain ⟨-, hobs, hproto⟩ := Client.hasRole_iff.mp hrole
      have hbefore := hall id c s (.of_hasRole hc hs hrole) hobs (hproto ▸ hp)
      exact hbefore.quiet htaken hfrom hsince fun _ hq => absurd hq List.not_mem_nil
    · rw [if_neg hrole] at hsince
      have hfrom : c'.attachedFrom = s.pty.taken.length := by
        rw [hsent.attachedFrom, Client.attachTo, if_neg hrole]
      refine ⟨?_, ?_, ?_⟩
      · exact Nat.le_of_eq (hfrom.trans (congrArg List.length htaken).symm)
      · rw [hsince, hfrom, htaken, List.drop_length]
        rfl
      · intro q hq
        rw [hsince] at hq
        cases hq
  | @joined m idx generation sessionId protocol observe _ s h =>
    have htaken := congrArg Pty.taken (attach_stream s m generation observe).1
    exact (hall id _ s h hobserve hprotocol).quiet htaken rfl (List.append_nil _).symm
      fun _ hq => absurd hq List.not_mem_nil
  | @left _ _ s _ h hleft =>
    have htaken : s'.pty.taken = s.pty.taken := hleft.taken
    exact (hall id _ s h hobserve hprotocol).quiet htaken rfl (List.append_nil _).symm
      fun _ hq => absurd hq List.not_mem_nil
  | @lost _ _ _ _ s _ h _ _ _ hleft =>
    have htaken : s'.pty.taken = s.pty.taken := hleft.taken
    exact (hall id _ s h hobserve hprotocol).quiet htaken rfl (List.append_nil _).symm
      fun _ hq => absurd hq List.not_mem_nil
  | @exit m _ s t status h hsteady =>
    exact (hall id _ s h hobserve hprotocol).quiet hsteady.pty.taken rfl (List.append_nil _).symm
      fun _ hq => absurd hq List.not_mem_nil
  | @fanout c _ s p got h _ _ hgives _ hsent =>
    have hp : c.protocol ≠ protocol2 := by
      rw [hsent.protocol] at hprotocol
      exact hprotocol
    have hsince := hsent.since_spend (hle h)
    rw [Client.liveFrame, if_neg hp] at hsince
    have hbefore := hall id c s h (hsent.observe.symm.trans hobserve) hp
    exact hbefore.send hgives.taken hsent.attachedFrom hsince
  | @short _ s p got h _ _ _ _ hwriter =>
    exact absurd (hwriter (Client.isWriter_iff.mpr ⟨h.leaf, hobserve⟩)) hprotocol
  | queue _ hpath =>
    rw [hworker, Bool.or_true] at hpath
    cases hpath
  | @flush c _ s t h hsent hleft =>
    have hbefore := hall id c s h (hsent.observe.symm.trans hobserve)
      (by rw [← hsent.protocol]; exact hprotocol)
    refine hbefore.quiet hleft.taken hsent.attachedFrom (hsent.since (hle h)) fun q hq => ?_
    exact live_not_queued hbind hrun h.session q (List.mem_of_mem_filter hq)
  | @skipResync _ s h | @repaint _ s _ h =>
    exact (hall id _ s h hobserve hprotocol).quiet rfl rfl (List.append_nil _).symm
      fun _ hq => absurd hq List.not_mem_nil

/-- In every state a worker can be in, the frames that its protocol-1 writer was sent since its
attach are the end of the bytes on its socket and in its outbox; the live ones of them are DATA and
bring it the bytes read from the leaf since its attach, one for one and in order, and no more than
it has granted. -/
theorem writer_lossless {d : Daemon} (h : Reachable d) (hworker : d.isWorker = true) {id : SessionId}
    {c : Client} {s : Session} (hc : c ∈ d.clients) (hwriter : c.isWriter id = true)
    (hprotocol : c.protocol ≠ protocol2) (hs : d.session id = some s) :
    c.stream.sent ++ c.outbox =
        Client.wires (c.log.take c.attachedAt) ++ Client.wires c.since ∧
      (∀ q ∈ c.since, q.frame.encode = .ok q.frame.wire) ∧
      c.attachedFrom ≤ s.pty.taken.length ∧ live c.since = s.pty.taken.drop c.attachedFrom ∧
      (∀ q ∈ c.since, ∀ start, q.origin = .live start → q.frame.isData) ∧
      (live c.since).length ≤ c.granted := by
  obtain ⟨hbind, hrun⟩ := h
  have hwritten := written_runs (bind_ok hbind).1 hrun c hc
  obtain rfl := (bind_ok hbind).2.1.symm.trans ((isWorker_runs hrun).symm.trans hworker)
  obtain ⟨hleaf, hobserve⟩ := Client.isWriter_iff.mp hwriter
  obtain ⟨hfrom, hlive, hdata⟩ := lossless_runs hbind hrun ⟨hc, hleaf, hs⟩ hobserve hprotocol
  have hpaid : (live c.log).length + c.credit ≤ c.granted := solvent_runs hbind hrun c hc
  have hsince := live_since_le c
  exact ⟨hwritten.since, hwritten.encodes, hfrom, hlive, hdata, by omega⟩

/-- The child writes more than the writer's credit, twice. -/
theorem writer_lossless_short :
    ∃ d c s, after [⟨[97, 98, 99], none, none, none⟩, ⟨[100], none, none, none⟩] ⟨1, 1, 0, 0⟩ true
        [{ Poll.quiet with
            accept := .ok (some (.of [.attach 1 none protocolVersion false, .credit 2] [] [])) },
          { Poll.quiet with ready := fun _ => true, readable := fun _ => true }] = .ok d ∧
      c ∈ d.clients ∧ d.session ⟨1⟩ = some s ∧ (live c.since).length = 2 ∧
      c.stream.sent ++ c.outbox =
        Client.wires (c.log.take c.attachedAt) ++ Client.wires c.since ∧
      (∀ q ∈ c.since, q.frame.encode = .ok q.frame.wire) ∧
      c.attachedFrom ≤ s.pty.taken.length ∧ live c.since = s.pty.taken.drop c.attachedFrom ∧
      (∀ q ∈ c.since, ∀ start, q.origin = .live start → q.frame.isData) ∧
      (live c.since).length ≤ c.granted := by
  obtain ⟨d, hafter, hfound⟩ := exists_after
    (r := after [⟨[97, 98, 99], none, none, none⟩, ⟨[100], none, none, none⟩] ⟨1, 1, 0, 0⟩ true
        [{ Poll.quiet with
            accept := .ok (some (.of [.attach 1 none protocolVersion false, .credit 2] [] [])) },
          { Poll.quiet with ready := fun _ => true, readable := fun _ => true }])
    (p := fun d => d.clients[0]?.any (fun c => c.isWriter ⟨1⟩ && c.protocol ≠ protocol2 &&
        (live c.since).length = 2) && (d.session ⟨1⟩).isSome && d.isWorker)
    (by decide +kernel) (fun _ h => h)
  simp only [Bool.and_eq_true, Option.any_eq_true, decide_eq_true_eq] at hfound
  obtain ⟨⟨⟨c, hc, ⟨hwriter, hprotocol⟩, hlen⟩, hs⟩, hworker⟩ := hfound
  obtain ⟨s, hs⟩ := Option.isSome_iff_exists.mp hs
  have hmem := List.mem_of_getElem? hc
  exact ⟨d, c, s, hafter, hmem, hs, hlen,
    writer_lossless (after_reachable hafter) hworker hmem hwriter hprotocol hs⟩

end Rill.Daemon
