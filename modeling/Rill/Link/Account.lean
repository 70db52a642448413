import Rill.Link.Balance

/-!
# The daemon's steps

What the daemon does to one of its connections and to the account of its session.
-/

namespace Rill.Link

open Lib Attach Kernel Daemon World Function

namespace Holds

variable {P P' : SessionId → Purse} {ahead : List Frame} {l : Line} {c c' : Client}

theorem congr (h : Holds P ahead l c) (hP : ∀ id, c.leaf = some id → P' id = P id) :
    Holds P' ahead l c := by
  obtain ⟨fs, hwired, hbalanced⟩ := h
  refine ⟨fs, hwired, { hbalanced with window := fun id hleaf => ?_ }⟩
  rw [hP id hleaf]
  exact hbalanced.window id hleaf

theorem spend (h : Holds P ahead l c) {id : SessionId} {got : List UInt8}
    (hcredit : got.length ≤ (P id).credit) :
    Holds (update P id ⟨true, (P id).credit - got.length, (P id).live ++ got⟩) ahead l c := by
  obtain ⟨fs, hwired, hbalanced⟩ := h
  refine ⟨fs, hwired, { hbalanced with window := fun j hleaf => ?_ }⟩
  have hwindow := hbalanced.window j hleaf
  by_cases hj : j = id
  · subst hj
    rw [update_self]
    dsimp only
    rw [List.length_append]
    omega
  · rw [update_of_ne hj]
    exact hwindow

theorem serve {d : Daemon} (h : Holds P ahead l c) (hserved : Served d c c')
    (hqueued : ∀ id, c.leaf = some id → (live (owed d c)).length = (P id).live.length ∧
      (P' id).credit = (P id).credit ∧ (P' id).live = [])
    (hidle : c.leaf = none → owed d c = []) : Holds P' ahead l c' := by
  obtain ⟨fs, hwired, hbalanced⟩ := h
  obtain ⟨hgets, hfits, hdecoder, hgrows⟩ := hserved
  have hleaf : c'.leaf = c.leaf := hgets.leaf
  have hlog : c'.log = c.log ++ owed d c := hgets.log
  refine ⟨fs, hwired.gets hlog hgets.bytes hgrows hfits hdecoder, ?_, ?_, hbalanced.fed, hbalanced.still,
    ?_, fun hnone => ?_, fun id hsome => ?_⟩
  · rw [hgets.observe]
    exact hbalanced.observe
  · rw [hgets.protocol]
    exact hbalanced.protocol
  · rw [hleaf]
    exact hbalanced.greets
  · rw [hleaf] at hnone
    rw [hlog, hidle hnone, List.append_nil]
    exact hbalanced.quiet hnone
  · rw [hleaf] at hsome
    obtain ⟨hlive, hcredit, hnil⟩ := hqueued id hsome
    have hwindow := hbalanced.window id hsome
    rw [hlog, List.drop_append_of_le_length hwired.passed_le, live_append, List.length_append, hcredit,
      hnil, hlive, List.length_nil]
    omega

theorem tell {piece : List UInt8} (h : Holds P [] l c)
    (hpiece : piece <+: l.host.stream.sent.drop l.told) :
    ∃ gs decoder, c.decoder.push piece = .ok (gs, decoder) ∧
      ∀ reads, Holds P gs { l with told := l.told + piece.length }
        { c with stream := { c.stream with reads }, decoder } := by
  obtain ⟨fs, hwired, hbalanced⟩ := h
  obtain ⟨gs, hs, decoder, rfl, hpush, hrest⟩ := hwired.tell hpiece
  refine ⟨gs, decoder, hpush, fun reads => ⟨hs, hrest _ rfl rfl rfl rfl, ?_⟩⟩
  exact ⟨hbalanced.observe, hbalanced.protocol, hbalanced.fed, hbalanced.still, hbalanced.greets,
    hbalanced.quiet, hbalanced.window⟩

theorem unread (h : Holds P ahead l c) (reads : List Read) :
    Holds P ahead l { c with stream := { c.stream with reads } } := by
  obtain ⟨fs, hwired, hbalanced⟩ := h
  exact ⟨fs, ⟨hwired.up, hwired.passed_le, hwired.down⟩, hbalanced.observe, hbalanced.protocol,
    hbalanced.fed, hbalanced.still, hbalanced.greets, hbalanced.quiet, hbalanced.window⟩

/-- A refused host's client waits for what will end the connection. -/
theorem refuse {generation : UInt64} {sessionId : Option UInt64} {protocol : UInt8} {observe : Bool}
    (h : Holds P (.attach generation sessionId protocol observe :: ahead) l c) (hleaf : c.leaf = none)
    (reason : RefuseReason) :
    Holds P ahead l (c.push ⟨.refused reason, .control⟩ (Frame.refused reason).wire) := by
  obtain ⟨fs, hwired, hbalanced⟩ := h
  have hquiet : Quiet ⟨.refused reason, .control⟩ := ⟨rfl, rfl⟩
  have hgot : Wired l (c.push ⟨.refused reason, .control⟩ (Frame.refused reason).wire) fs := by
    have hlog : (c.push ⟨.refused reason, .control⟩ (Frame.refused reason).wire).log =
        c.log ++ [⟨.refused reason, .control⟩] := rfl
    refine hwired.gets hlog ?_ (List.prefix_refl _) ?_ rfl
    · have hwires : Client.wires [⟨.refused reason, .control⟩] = (Frame.refused reason).wire :=
        List.append_nil _
      rw [hwires]
      exact (List.append_assoc _ _ _).symm
    · intro q hq
      obtain rfl := List.mem_singleton.mp hq
      exact Nat.le_of_ble_eq_true rfl
  have hgreets := hbalanced.greets
  rw [hleaf] at hgreets
  obtain ⟨rest, hrest, heq | ⟨generation', sessionId', heq⟩⟩ := hgreets
  · cases heq
  · obtain ⟨-, htail⟩ := List.cons.inj heq
    refine ⟨fs, hgot, hbalanced.observe, hbalanced.protocol, hbalanced.fed, hbalanced.still, ?_, ?_, ?_⟩
    · change Greets c.leaf _
      rw [hleaf]
      exact ⟨rest, hrest, .inl htail⟩
    · intro _ q hq
      have hq : q ∈ c.log ++ [_] ++ (l.owed ++ l.feeding) := hq
      rw [List.mem_append, List.mem_append, List.mem_singleton] at hq
      rcases hq with (hold | rfl) | hfed
      · exact hbalanced.quiet hleaf q (List.mem_append_left _ hold)
      · exact hquiet
      · exact hbalanced.quiet hleaf q (List.mem_append_right _ hfed)
    · intro id hsome
      rw [show (c.push _ _).leaf = c.leaf from rfl, hleaf] at hsome
      cases hsome

/-- A host that attaches to a session that nobody holds has the window on its way. -/
theorem attach {generation : UInt64} {sessionId : Option UInt64} {protocol : UInt8} {observe : Bool}
    (h : Holds P (.attach generation sessionId protocol observe :: ahead) l c) (hleaf : c.leaf = none)
    {id : SessionId} (hfree : P id = ⟨false, 0, []⟩) (taken : Nat) :
    Holds (update P id { P id with held := true }) ahead l
      (c.attachTo id false protocolVersion taken) := by
  obtain ⟨fs, hwired, hbalanced⟩ := h
  have hgreets := hbalanced.greets
  rw [hleaf] at hgreets
  obtain ⟨rest, hrest, heq | ⟨generation', sessionId', heq⟩⟩ := hgreets
  · cases heq
  · obtain ⟨-, htail⟩ := List.cons.inj heq
    have htail : ahead ++ fs = .credit Host.creditWindow :: rest := htail
    have hquiet := hbalanced.quiet hleaf
    have hprotocol : protocolVersion ≠ protocol2 := by decide
    refine ⟨fs, ⟨hwired.up, hwired.passed_le, hwired.down⟩, rfl, hprotocol, hbalanced.fed,
      hbalanced.still, fun f hf => ?_, nofun, fun j hj => ?_⟩
    · rw [htail] at hf
      rcases List.mem_cons.mp hf with rfl | hf
      · rfl
      · exact isAttach_inert (hrest f hf)
    · obtain rfl : id = j := Option.some.inj hj
      have hlog : live (c.log.drop l.passed) = [] :=
        live_quiet fun q hq => hquiet q (List.mem_append_left _ (List.mem_of_mem_drop hq))
      have hfed : live (l.owed ++ l.feeding) = [] :=
        live_quiet fun q hq => hquiet q (List.mem_append_right _ hq)
      rw [update_self, hfree, htail, grants_cons, grants_inert hrest]
      change 0 + 0 + (live (c.log.drop l.passed)).length + (live (l.owed ++ l.feeding)).length +
        (windowSize + 0 + 0) = windowSize
      rw [hlog, hfed, List.length_nil]
      omega

/-- A frame of the host's own comes to the session. -/
theorem own {f : Frame} (h : Holds P (f :: ahead) l c) {id : SessionId} (hleaf : c.leaf = some id) :
    Holds (update P id ((P id).top f)) ahead l (creditClient f c) := by
  obtain ⟨fs, hwired, hbalanced⟩ := h
  obtain ⟨hleaf', hobserve, hprotocol, hlog, -, -⟩ := creditClient_role f c
  have hsame : (creditClient f c).decoder = c.decoder ∧ (creditClient f c).stream = c.stream ∧
      (creditClient f c).outbox = c.outbox := by
    unfold creditClient
    split
    case h_1 => exact ⟨rfl, rfl, rfl⟩
    case h_2 => exact ⟨rfl, rfl, rfl⟩
  obtain ⟨hdecoder, hstream, houtbox⟩ := hsame
  have hwindow := hbalanced.window id hleaf
  rw [List.cons_append, grants_cons] at hwindow
  refine ⟨fs, ⟨hdecoder ▸ hwired.up, hlog ▸ hwired.passed_le, ?_⟩, hobserve.trans hbalanced.observe,
    ?_, hbalanced.fed, hbalanced.still, ?_, fun hnone => ?_, fun j hj => ?_⟩
  · rw [hlog, hstream, houtbox]
    exact hwired.down
  · rw [hprotocol]
    exact hbalanced.protocol
  · have hgreets := hbalanced.greets
    rw [hleaf', hleaf]
    rw [hleaf] at hgreets
    exact fun k hk => hgreets k (List.mem_cons_of_mem _ hk)
  · rw [hleaf', hleaf] at hnone
    cases hnone
  · rw [hleaf', hleaf] at hj
    obtain rfl := Option.some.inj hj
    rw [update_self, hlog]
    have hsize : windowSize = 262144 := rfl
    cases f with
    | credit n =>
      have hone : grants [Frame.credit n] = n.toNat := rfl
      have hmin : min ((P id).credit + n.toNat) u64Max = (P id).credit + n.toNat := by
        refine Nat.min_eq_left ?_
        have hcap : u64Max = 18446744073709551615 := rfl
        omega
      change min ((P id).credit + n.toNat) u64Max + (P id).live.length + _ + _ + _ = _
      rw [hmin]
      omega
    | attach | data | resize | exit | refused | checkpoint | delta | resyncRequest =>
      change _ + (0 + grants (ahead ++ fs)) = _ at hwindow
      rw [Nat.zero_add] at hwindow
      exact hwindow

end Holds

end Rill.Link
