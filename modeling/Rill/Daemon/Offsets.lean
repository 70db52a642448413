import Rill.Daemon.Streams
import Rill.Daemon.Written

/-!
# Offsets on the wire

What a protocol-2 client is sent since its attach, against the output of its
leaf: a CHECKPOINT, then DELTAs at the offsets they say, none before what an
earlier frame already covers.
-/

namespace Rill.Daemon

open Lib Attach Kernel

/-- The stream offset up to which a frame brings a client. -/
def coveredTo : Frame → Nat
  | .checkpoint endingOffset _ _ => endingOffset.toNat
  | .delta startOffset bytes => startOffset.toNat + bytes.length
  | _ => 0

def isPlain : Frame → Bool
  | .checkpoint .. | .delta .. => false
  | _ => true

/-- `qs` are honest about `stream`: they begin with a CHECKPOINT, every DELTA is the
bytes at its offset, and starts at or behind the end of all that came before it. -/
structure Honest (stream : List UInt8) (qs : List Queued) : Prop where
  first : ∃ endingOffset hash blob origin rest,
    qs = ⟨.checkpoint endingOffset hash blob, origin⟩ :: rest
  deltas : ∀ q ∈ qs, ∀ startOffset bytes, q.frame = .delta startOffset bytes →
    bytes ≠ [] ∧ (stream.drop startOffset.toNat).take bytes.length = bytes
  within : ∀ q ∈ qs, coveredTo q.frame ≤ stream.length
  increasing : qs.Pairwise fun q q' => ∀ startOffset bytes, q'.frame = .delta startOffset bytes →
    coveredTo q.frame ≤ startOffset.toNat

theorem Honest.mono {stream stream' : List UInt8} {qs : List Queued} (h : Honest stream qs)
    (hstream : stream <+: stream') : Honest stream' qs := by
  obtain ⟨more, rfl⟩ := hstream
  refine ⟨h.first, fun q hq startOffset bytes hdelta => ?_, fun q hq => ?_, h.increasing⟩
  · obtain ⟨hne, hbytes⟩ := h.deltas q hq startOffset bytes hdelta
    have hcovered := h.within q hq
    rw [hdelta, coveredTo] at hcovered
    refine ⟨hne, ?_⟩
    rw [List.drop_append_of_le_length (by omega), List.take_append_of_le_length, hbytes]
    rw [List.length_drop]
    omega
  · rw [List.length_append]
    exact Nat.le_add_right_of_le (h.within q hq)

theorem coveredTo_plain {f : Frame} (h : isPlain f = true) : coveredTo f = 0 := by
  cases f with
  | checkpoint | delta => cases h
  | attach | data | credit | resize | exit | refused | resyncRequest => rfl

theorem Honest.plain {stream : List UInt8} {qs qs' : List Queued} (h : Honest stream qs)
    (hplain : ∀ q ∈ qs', isPlain q.frame = true) : Honest stream (qs ++ qs') := by
  have hnot : ∀ q ∈ qs', ∀ startOffset bytes, q.frame ≠ .delta startOffset bytes := by
    intro q hq startOffset bytes hdelta
    have hq := hplain q hq
    rw [hdelta] at hq
    cases hq
  obtain ⟨endingOffset, hash, blob, origin, rest, rfl⟩ := h.first
  refine ⟨⟨endingOffset, hash, blob, origin, rest ++ qs', rfl⟩, ?_, ?_, ?_⟩
  · intro q hq startOffset bytes hdelta
    rcases List.mem_append.mp hq with hold | hnew
    · exact h.deltas q hold startOffset bytes hdelta
    · exact absurd hdelta (hnot q hnew startOffset bytes)
  · intro q hq
    rcases List.mem_append.mp hq with hold | hnew
    · exact h.within q hold
    · rw [coveredTo_plain (hplain q hnew)]
      exact Nat.zero_le _
  · refine List.pairwise_append.mpr ⟨h.increasing, ?_, fun q _ q' hq' startOffset bytes hdelta => ?_⟩
    · exact List.pairwise_of_forall_mem_list fun q _ q' hq' startOffset bytes hdelta =>
        absurd hdelta (hnot q' hq' startOffset bytes)
    · exact absurd hdelta (hnot q' hq' startOffset bytes)

/-- A CHECKPOINT or a DELTA that brings the client up to the end of the stream. -/
theorem Honest.snoc {stream got : List UInt8} {qs : List Queued} (h : Honest stream qs)
    {q : Queued} (hcovered : coveredTo q.frame = (stream ++ got).length)
    (hdelta : ∀ startOffset bytes, q.frame = .delta startOffset bytes →
      startOffset.toNat = stream.length ∧ bytes = got ∧ got ≠ []) :
    Honest (stream ++ got) (qs ++ [q]) := by
  have hmono := h.mono (List.prefix_append stream got)
  obtain ⟨endingOffset, hash, blob, origin, rest, rfl⟩ := h.first
  refine ⟨⟨endingOffset, hash, blob, origin, rest ++ [q], rfl⟩, ?_, ?_, ?_⟩
  · intro k hk startOffset bytes hkdelta
    rcases List.mem_append.mp hk with hold | hnew
    · exact hmono.deltas k hold startOffset bytes hkdelta
    · obtain rfl := List.mem_singleton.mp hnew
      obtain ⟨hstart, rfl, hne⟩ := hdelta startOffset bytes hkdelta
      rw [hstart, List.drop_left, List.take_length]
      exact ⟨hne, rfl⟩
  · intro k hk
    rcases List.mem_append.mp hk with hold | hnew
    · exact hmono.within k hold
    · obtain rfl := List.mem_singleton.mp hnew
      exact Nat.le_of_eq hcovered
  · refine List.pairwise_append.mpr ⟨h.increasing, List.pairwise_singleton _ _, ?_⟩
    intro k hk k' hk' startOffset bytes hkdelta
    obtain rfl := List.mem_singleton.mp hk'
    rw [(hdelta startOffset bytes hkdelta).1]
    exact h.within k hk

theorem Honest.checkpoint {stream : List UInt8} {endingOffset hash : UInt64} {blob : List UInt8}
    {origin : Origin} (h : endingOffset.toNat = stream.length) :
    Honest stream [⟨.checkpoint endingOffset hash blob, origin⟩] := by
  refine ⟨⟨_, _, _, _, [], rfl⟩, ?_, ?_, List.pairwise_singleton _ _⟩
  · intro q hq startOffset bytes hdelta
    obtain rfl := List.mem_singleton.mp hq
    cases hdelta
  · intro q hq
    obtain rfl := List.mem_singleton.mp hq
    exact Nat.le_of_eq h

theorem Queueable.plain {s : Session} {q : Queued} (h : Queueable s q) : isPlain q.frame = true := by
  cases h with
  | exit | refused | live | repaint => rfl

theorem Counted.offset {s : Session} (h : Counted s) (hroom : s.pty.taken.length < 2 ^ 64) :
    s.bytesDelivered = s.pty.taken.length := by
  rw [h.delivered, h.stop, u64Max]
  omega

theorem toNat_ofNat {n : Nat} (h : n < 2 ^ 64) : (UInt64.ofNat n).toNat = n := by
  rw [UInt64.toNat_ofNat']
  exact Nat.mod_eq_of_lt h

theorem Shown.checkpoint {s : Session} {observe : Bool} {qs : List Queued}
    (h : Shown s observe protocol2 qs) : ∃ hash blob,
      qs = [⟨.checkpoint (UInt64.ofNat s.bytesDelivered) hash blob, .repaint s.pty.taken.length⟩] := by
  rw [Shown, if_pos rfl] at h
  obtain ⟨grid, rfl⟩ := h
  exact ⟨_, _, rfl⟩

/-- In every state a client of protocol 2 has been sent honest offsets since its attach. -/
theorem honest_runs {G : Daemon → Act → Prop} {turns : List Turn} {size : Winsize}
    {isWorker : Bool} {d₀ d : Daemon} (hbind : Daemon.bind (.spawn size turns) size isWorker = .ok d₀)
    (hrun : Runs Act.Takes G d₀ d) {id : SessionId} {c : Client} {s : Session} (h : On d id c s)
    (hprotocol : c.protocol = protocol2) (hroom : s.pty.taken.length < 2 ^ 64) :
    Honest s.pty.taken c.since := by
  have h₀ := (bind_ok hbind).1
  refine moved_runs (I := fun _ c s => c.protocol = protocol2 → s.pty.taken.length < 2 ^ 64 →
    Honest s.pty.taken c.since) h₀ ?_ hrun id c s h hprotocol hroom
  intro d a id c' s' hrun _ hall hmoved hprotocol hroom
  have hle : ∀ {c s}, On d id c s → c.attachedAt ≤ c.log.length := attachedAt_runs h₀ hrun
  have hcounted : ∀ {s}, d.session id = some s → Counted s := counted_runs hbind hrun
  cases hmoved with
  | @keep _ f c _ s _ qs h hsteady hsent hqs =>
    have htaken := hsteady.pty.taken
    rw [hsent.protocol, (creditClient_role f c).2.2.1] at hprotocol
    rw [htaken] at hroom ⊢
    rw [hsent.since_credit (hle h)]
    refine (hall id c s h hprotocol hroom).plain fun q hq => ?_
    obtain ⟨reason, rfl⟩ := hqs q hq
    rfl
  | @joins m idx generation sessionId protocol observe c _ s qs hc hs _ _ _ hshown hsent =>
    have hpty := (attach_stream s m generation observe).1
    obtain rfl : protocol = protocol2 := hsent.protocol.symm.trans hprotocol
    obtain ⟨hash, blob, rfl⟩ := hshown.checkpoint
    rw [hpty] at hroom ⊢
    have hend : (UInt64.ofNat s.bytesDelivered).toNat = s.pty.taken.length := by
      rw [(hcounted hs).offset hroom, toNat_ofNat hroom]
    rw [hsent.since_attachTo fun hrole => hle (.of_hasRole hc hs hrole)]
    split
    case isTrue hrole =>
      have hbefore := hall id c s (.of_hasRole hc hs hrole) (Client.hasRole_iff.mp hrole).2.2 hroom
      have hcovered : coveredTo (.checkpoint (UInt64.ofNat s.bytesDelivered) hash blob) =
          (s.pty.taken ++ []).length := by
        rw [List.append_nil]
        exact hend
      have hafter := hbefore.snoc
        (q := ⟨.checkpoint (UInt64.ofNat s.bytesDelivered) hash blob, .repaint s.pty.taken.length⟩)
        hcovered nofun
      rwa [List.append_nil] at hafter
    case isFalse => exact .checkpoint hend
  | @joined m idx generation sessionId protocol observe _ s h =>
    have hpty := (attach_stream s m generation observe).1
    rw [hpty] at hroom ⊢
    exact hall id _ s h hprotocol hroom
  | left h hleft =>
    rw [hleft.taken] at hroom ⊢
    exact hall id _ _ h hprotocol hroom
  | @exit m _ s t status h hsteady =>
    have htaken : (t.observeExit status).pty.taken = s.pty.taken := hsteady.pty.taken
    rw [htaken] at hroom ⊢
    exact hall id _ s h hprotocol hroom
  | @fanout c _ s p got h hpath hgot hgives hcredit hsent =>
    have htaken : (({ s with pty := p } : Session).deliver got).pty.taken = s.pty.taken ++ got :=
      hgives.taken
    rw [htaken] at hroom ⊢
    rw [List.length_append] at hroom
    have hp : c.protocol = protocol2 := hsent.protocol.symm.trans hprotocol
    have hroom' : s.pty.taken.length < 2 ^ 64 := by omega
    have hstart : min (s.bytesDelivered + got.length) u64Max - got.length = s.pty.taken.length := by
      rw [(hcounted h.session).offset hroom', u64Max]
      omega
    rw [hsent.since_spend (hle h), Client.liveFrame, if_pos hp, hstart]
    refine (hall id c s h hp hroom').snoc ?_ ?_
    · rw [coveredTo, toNat_ofNat hroom', List.length_append]
    · rintro _ _ ⟨⟩
      exact ⟨toNat_ofNat hroom', rfl, hgot⟩
  | @short _ s p got h _ _ hgives =>
    have htaken : (({ s with pty := p } : Session).deliver got).pty.taken = s.pty.taken ++ got :=
      hgives.taken
    rw [htaken] at hroom ⊢
    rw [List.length_append] at hroom
    exact (hall id c' s h hprotocol (by omega)).mono ⟨got, rfl⟩
  | @queue _ s p got h _ _ _ hgives =>
    have htaken : (({ s with pty := p } : Session).deliverQueued s.pty.taken.length got).pty.taken =
        s.pty.taken ++ got := hgives.taken
    rw [htaken] at hroom ⊢
    rw [List.length_append] at hroom
    exact (hall id c' s h hprotocol (by omega)).mono ⟨got, rfl⟩
  | @flush c _ s t h hsent hleft =>
    have htaken := hleft.taken
    rw [hsent.protocol] at hprotocol
    rw [htaken] at hroom ⊢
    rw [hsent.since (hle h)]
    refine (hall id c s h hprotocol hroom).plain fun q hq => ?_
    exact (queueable_runs hbind hrun h.session q (List.mem_of_mem_filter hq)).plain
  | @lost _ _ _ _ s _ h _ _ _ hleft =>
    rw [hleft.taken] at hroom ⊢
    exact hall id c' s h hprotocol hroom
  | @skipResync _ s h | @repaint _ s _ h => exact hall id c' s h hprotocol hroom

/-- In every state the daemon can be in, what a leaf has delivered is what its ring has seen;
and the frames that a client of protocol 2 was sent since its attach are the end of the bytes on
its socket and in its outbox, and honest in their offsets while that is less than `2 ^ 64` bytes. -/
theorem offsets_honest {d : Daemon} (h : Reachable d) :
    (∀ id s, d.session id = some s → s.bytesDelivered = s.ring.endOffset) ∧
      ∀ c ∈ d.clients, ∀ id s, c.leaf = some id → d.session id = some s →
        c.protocol = protocol2 →
          c.stream.sent ++ c.outbox =
              Client.wires (c.log.take c.attachedAt) ++ Client.wires c.since ∧
            (∀ q ∈ c.since, q.frame.encode = .ok q.frame.wire) ∧
            (s.pty.taken.length < 2 ^ 64 → Honest s.pty.taken c.since) := by
  obtain ⟨hbind, hrun⟩ := h
  refine ⟨fun id s hs => (counted_runs hbind hrun hs).delivered, ?_⟩
  intro c hc id s hleaf hs hprotocol
  have hwritten := written_runs (bind_ok hbind).1 hrun c hc
  exact ⟨hwritten.since, hwritten.encodes, honest_runs hbind hrun ⟨hc, hleaf, hs⟩ hprotocol⟩

theorem offsets_honest_delta :
    ∃ d c s, after [⟨[97, 98, 99], none, none, none⟩] ⟨1, 1, 0, 0⟩ false
        [{ Poll.quiet with
            accept := .ok (some (.of [.attach 1 none protocol2 true, .credit 10] [] [])) },
          { Poll.quiet with ready := fun _ => true, readable := fun _ => true }] = .ok d ∧
      c ∈ d.clients ∧ d.session ⟨1⟩ = some s ∧ c.since.length = 2 ∧
      c.stream.sent ++ c.outbox =
        Client.wires (c.log.take c.attachedAt) ++ Client.wires c.since ∧
      Honest s.pty.taken c.since := by
  obtain ⟨d, hafter, hfound⟩ := exists_after
    (r := after [⟨[97, 98, 99], none, none, none⟩] ⟨1, 1, 0, 0⟩ false
        [{ Poll.quiet with
            accept := .ok (some (.of [.attach 1 none protocol2 true, .credit 10] [] [])) },
          { Poll.quiet with ready := fun _ => true, readable := fun _ => true }])
    (p := fun d => d.clients[0]?.any (fun c => c.leaf = some ⟨1⟩ && c.protocol = protocol2 &&
        c.since.length = 2) &&
      (d.session ⟨1⟩).any fun s => s.pty.taken.length = 3)
    (by decide +kernel) (fun _ h => h)
  rw [Bool.and_eq_true, Option.any_eq_true, Option.any_eq_true] at hfound
  obtain ⟨⟨c, hc, hrole⟩, s, hs, hlen⟩ := hfound
  simp only [Bool.and_eq_true, decide_eq_true_eq] at hrole hlen
  obtain ⟨⟨hleaf, hprotocol⟩, hsince⟩ := hrole
  have hmem := List.mem_of_getElem? hc
  obtain ⟨hbytes, -, hhonest⟩ :=
    (offsets_honest (after_reachable hafter)).2 c hmem ⟨1⟩ s hleaf hs hprotocol
  exact ⟨d, c, s, hafter, hmem, hs, hsince, hbytes, hhonest (by rw [hlen]; decide)⟩

end Rill.Daemon
