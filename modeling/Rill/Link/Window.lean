import Rill.Daemon.Claims
import Rill.Link.Account

/-!
# The window over a run

What every step keeps of all connections, and with it the window of each.
-/

namespace Rill.Link

open Lib Attach Kernel Daemon World Function

-- ---------------------------------------------------------------------------
-- All connections
-- ---------------------------------------------------------------------------

/-- The frames that the daemon has read and not come to are `mine`, of the host at `reading`; or
they are those of a host that is gone, and harmless. -/
def Batched (w : World) (mine : List Frame) : Prop :=
  (mine = w.batch ∧ (w.batch ≠ [] → w.reading < w.daemon.clients.length)) ∨
    (mine = [] ∧ ∀ f ∈ w.batch, Host.inert f = true)

/-- A session that nobody holds has no credit and no output. -/
def Free (P : SessionId → Purse) : Prop := ∀ id, (P id).held = false → P id = ⟨false, 0, []⟩

theorem Free.update {P : SessionId → Purse} (h : Free P) (id : SessionId) {p : Purse}
    (hheld : p.held = true) : Free (update P id p) := by
  intro j hj
  by_cases hid : j = id
  · rw [hid, update_self, hheld] at hj
    cases hj
  · rw [update_of_ne hid] at hj ⊢
    exact h j hj

theorem Free.leave {S : Sessions} (h : Free (purses S)) (hlive : LiveIsData S) {c : Client}
    (hwrites : c.observe = false) : Free (purses fun id => (S id).map (c.leave id)) := by
  intro id hheld
  rw [leave_purses hlive hwrites] at hheld ⊢
  split at hheld
  case isTrue hleaf => rw [if_pos hleaf]
  case isFalse hleaf =>
    rw [if_neg hleaf]
    exact h id hheld

/-- What is so in every world. -/
structure Steadfast (d₀ : Daemon) (w : World) : Prop where
  run : Runs Act.Takes NoUpgrade d₀ w.daemon
  length : w.lines.length = w.daemon.clients.length
  free : Free (purses w.daemon.session)
  holds : ∃ mine, Batched w mine ∧ ∀ i l c, w.lines[i]? = some l → w.daemon.clients[i]? = some c →
    Holds (purses w.daemon.session) (if i = w.reading then mine else []) l c

theorem held_eq (d : Daemon) (id : SessionId) : (purses d.session id).held = d.attached id := by
  change (purseOf (d.kernel.session id)).held = (d.kernel.session id).any Session.attached
  cases d.kernel.session id with
  | none => rfl
  | some s => rfl

namespace Steadfast

variable {turns : List Turn} {size : Winsize} {d₀ : Daemon} {w : World}

theorem new (hbind : Daemon.bind (.spawn size turns) size false = .ok d₀) :
    Steadfast d₀ (.new d₀) := by
  obtain ⟨hclients, -, hsession⟩ := bind_ok hbind
  refine ⟨.refl, ?_, fun id _ => ?_, [], .inl ⟨rfl, fun h => absurd rfl h⟩, fun i l c hl _ => ?_⟩
  · change 0 = d₀.clients.length
    rw [hclients]
    rfl
  · change purses d₀.session id = _
    rw [hsession, purses_update]
    by_cases hid : id = d₀.defaultId
    · rw [hid, update_self]
      rfl
    · rw [update_of_ne hid]
      rfl
  · change ([] : List Line)[i]? = some l at hl
    rw [List.getElem?_nil] at hl
    cases hl

theorem exists_line (h : Steadfast d₀ w) {i : Nat} {c : Client}
    (hc : w.daemon.clients[i]? = some c) : ∃ l, w.lines[i]? = some l := by
  have hlt := (List.getElem?_eq_some_iff.mp hc).1
  rw [← h.length] at hlt
  exact ⟨_, List.getElem?_eq_getElem hlt⟩

theorem plain (h : Steadfast d₀ w) (hbind : Daemon.bind (.spawn size turns) size false = .ok d₀) :
    Plain w.daemon := by
  obtain ⟨mine, -, hholds⟩ := h.holds
  have hall : ∀ c ∈ w.daemon.clients, c.observe = false ∧ c.protocol ≠ protocol2 := by
    intro c hc
    obtain ⟨i, hi⟩ := List.mem_iff_getElem?.mp hc
    obtain ⟨l, hl⟩ := h.exists_line hi
    obtain ⟨fs, -, hbalanced⟩ := hholds i l c hl hi
    exact ⟨hbalanced.observe, hbalanced.protocol⟩
  exact ⟨(isWorker_runs h.run).trans (bind_ok hbind).2.1, fun c hc => (hall c hc).1,
    fun c hc => (hall c hc).2⟩

theorem noUpgrade {d : Daemon} (h : Plain d) (a : Act) : NoUpgrade d a := by
  intro slot id _ _
  rw [observes]
  cases hc : d.clients[slot]? with
  | none => rfl
  | some c => exact h.writes c (List.mem_of_getElem? hc)

theorem tail (h : Steadfast d₀ w) (hbind : Daemon.bind (.spawn size turns) size false = .ok d₀)
    {a : Act} {d : Daemon} (htakes : Act.Takes w.daemon a d) : Runs Act.Takes NoUpgrade d₀ d :=
  h.run.tail ⟨a, noUpgrade (h.plain hbind) a, htakes⟩

theorem atMostOne (h : Steadfast d₀ w) (hbind : Daemon.bind (.spawn size turns) size false = .ok d₀) :
    Ledger.AtMostOneHolder (ledger w.daemon) :=
  atMostOneHolder_runs (ledger_bind hbind).atMostOneHolder h.run

theorem isWriter (h : Steadfast d₀ w) (hbind : Daemon.bind (.spawn size turns) size false = .ok d₀)
    {i : Nat} {c : Client} {id : SessionId} (hc : w.daemon.clients[i]? = some c)
    (hleaf : c.leaf = some id) : c.isWriter id = true :=
  Client.isWriter_iff.mpr ⟨hleaf, (h.plain hbind).writes c (List.mem_of_getElem? hc)⟩

/-- No two clients are on one leaf. -/
theorem alone (h : Steadfast d₀ w) (hbind : Daemon.bind (.spawn size turns) size false = .ok d₀)
    {i j : Nat} {c c' : Client} {id : SessionId} (hc : w.daemon.clients[i]? = some c)
    (hc' : w.daemon.clients[j]? = some c') (hleaf : c.leaf = some id) (hleaf' : c'.leaf = some id) :
    i = j :=
  writer_unique (h.atMostOne hbind) hc hc' (h.isWriter hbind hc hleaf) (h.isWriter hbind hc' hleaf')

theorem held (h : Steadfast d₀ w) (hbind : Daemon.bind (.spawn size turns) size false = .ok d₀)
    {i : Nat} {c : Client} {id : SessionId} (hc : w.daemon.clients[i]? = some c)
    (hleaf : c.leaf = some id) : (purses w.daemon.session id).held = true := by
  rw [held_eq]
  exact writer_attached (h.atMostOne hbind) hc (h.isWriter hbind hc hleaf)

/-- Between two reads, each host has yet to be heard with what is on its way. -/
theorem holds_idle (h : Steadfast d₀ w) (hbatch : w.batch = []) {i : Nat} {l : Line} {c : Client}
    (hl : w.lines[i]? = some l) (hc : w.daemon.clients[i]? = some c) :
    Holds (purses w.daemon.session) [] l c := by
  obtain ⟨mine, hmine, hholds⟩ := h.holds
  have hnil : mine = [] := by
    rcases hmine with ⟨rfl, -⟩ | ⟨rfl, -⟩
    · exact hbatch
    · rfl
  have hpair := hholds i l c hl hc
  rwa [hnil, ite_self] at hpair

theorem of_idle {d : Daemon} {lines : List Line} {reading : Nat}
    (hrun : Runs Act.Takes NoUpgrade d₀ d) (hlength : lines.length = d.clients.length)
    (hfree : Free (purses d.session))
    (hholds : ∀ (i : Nat) (l : Line) (c : Client), lines[i]? = some l → d.clients[i]? = some c →
      Holds (purses d.session) [] l c) : Steadfast d₀ ⟨d, lines, [], reading⟩ := by
  refine ⟨hrun, hlength, hfree, [], .inl ⟨rfl, fun h => absurd rfl h⟩, fun i l c hl hc => ?_⟩
  rw [ite_self]
  exact hholds i l c hl hc

-- ---------------------------------------------------------------------------
-- The hosts' steps
-- ---------------------------------------------------------------------------

theorem setLine (h : Steadfast d₀ w) {slot : Nat} {l l' : Line} (hl : w.lines[slot]? = some l)
    (hholds : ∀ c ahead, w.daemon.clients[slot]? = some c →
      Holds (purses w.daemon.session) ahead l c → Holds (purses w.daemon.session) ahead l' c) :
    Steadfast d₀ (w.setLine slot l') := by
  obtain ⟨hrun, hlength, hfree, mine, hmine, hall⟩ := h
  have hlt := (List.getElem?_eq_some_iff.mp hl).1
  refine ⟨hrun, (List.length_set ..).trans hlength, hfree, mine, hmine, fun i k c hk hc => ?_⟩
  change (w.lines.set slot l')[i]? = some k at hk
  by_cases hi : i = slot
  · subst hi
    rw [List.getElem?_set_self hlt] at hk
    obtain rfl := Option.some.inj hk
    exact hholds c _ hc (hall i l c hl hc)
  · rw [List.getElem?_set_ne (fun h => hi h.symm)] at hk
    exact hall i k c hk hc

theorem connect (h : Steadfast d₀ w) (hbind : Daemon.bind (.spawn size turns) size false = .ok d₀)
    (hbatch : w.batch = []) {down up : Stream} {surface : Host.HostSurface}
    {sessionId : Option UInt64} {host : Host.Client} (hup : up.sent = [])
    (hhost : Host.Client.connectSession up surface sessionId = .ok host) :
    Steadfast d₀ { w with daemon := w.daemon.acceptClient down, lines := w.lines ++ [.new host] } := by
  have htakes : Act.Takes w.daemon (.accept down) (w.daemon.acceptClient down) := ⟨trivial, rfl⟩
  have hclients : (w.daemon.acceptClient down).clients = w.daemon.clients ++ [.new down] := rfl
  have hlength := h.length
  rw [show w.batch = [] from hbatch]
  refine of_idle (h.tail hbind htakes) ?_ h.free fun i l c hl hc => ?_
  · rw [hclients, List.length_append, List.length_append, hlength]
    rfl
  · rw [hclients] at hc
    by_cases hi : i < w.lines.length
    · rw [List.getElem?_append_left hi] at hl
      rw [List.getElem?_append_left (hlength ▸ hi)] at hc
      exact h.holds_idle hbatch hl hc
    · have hle := Nat.le_of_not_lt hi
      rw [List.getElem?_append_right hle, List.getElem?_singleton] at hl
      rw [List.getElem?_append_right (hlength ▸ hle), List.getElem?_singleton] at hc
      split at hl
      case isFalse => cases hl
      case isTrue =>
        split at hc
        case isFalse => cases hc
        case isTrue =>
          obtain rfl := Option.some.inj hl
          obtain rfl := Option.some.inj hc
          have hprotocol : protocolVersion ≠ protocol2 := by decide
          refine ⟨_, Wired.connect hup hhost, rfl, hprotocol, nofun, fun _ => ⟨rfl, rfl⟩, ?_, ?_,
            nofun⟩
          · exact ⟨[], fun f hf => absurd hf List.not_mem_nil, .inr ⟨1, sessionId, rfl⟩⟩
          · exact fun _ q hq => absurd hq List.not_mem_nil

-- ---------------------------------------------------------------------------
-- The daemon's steps
-- ---------------------------------------------------------------------------

theorem quiet (h : Steadfast d₀ w) (hbatch : w.batch = []) {d : Daemon}
    (hrun : Runs Act.Takes NoUpgrade d₀ d) (hclients : d.clients = w.daemon.clients)
    (hpurses : purses d.session = purses w.daemon.session) : Steadfast d₀ { w with daemon := d } := by
  rw [show w.batch = [] from hbatch]
  refine of_idle hrun (h.length.trans (congrArg List.length hclients.symm)) (hpurses ▸ h.free)
    fun i l c hl hc => ?_
  rw [hpurses]
  exact h.holds_idle hbatch hl (hclients ▸ hc)

theorem drain (h : Steadfast d₀ w) (hbind : Daemon.bind (.spawn size turns) size false = .ok d₀)
    (hbatch : w.batch = []) {id : SessionId} {more : Bool} {d : Daemon}
    (hrun : Runs Act.Takes NoUpgrade d₀ d) (hdrain : (drainOnce id).exec w.daemon = (.ok more, d)) :
    Steadfast d₀ { w with daemon := d } := by
  obtain ⟨hclients, hsame | ⟨got, hgot, hcredit, hspent⟩⟩ := drain_purses (h.plain hbind) hdrain
  · exact h.quiet hbatch hrun hclients hsame
  · have hheld : (purses w.daemon.session id).held = true := by
      cases hheld : (purses w.daemon.session id).held with
      | true => rfl
      | false =>
        rw [h.free id hheld] at hcredit
        exact absurd (List.eq_nil_of_length_eq_zero (Nat.le_zero.mp hcredit)) hgot
    have hpurses := hspent hheld
    rw [show w.batch = [] from hbatch]
    refine of_idle hrun (h.length.trans (congrArg List.length hclients.symm)) ?_ fun i l c hl hc => ?_
    · rw [hpurses]
      exact h.free.update id rfl
    · rw [hpurses]
      exact (h.holds_idle hbatch hl (hclients ▸ hc)).spend hcredit

theorem elsewhere (h : Steadfast d₀ w) (hbind : Daemon.bind (.spawn size turns) size false = .ok d₀)
    {slot i : Nat} {c c' : Client} {id : SessionId} (hc : w.daemon.clients[slot]? = some c)
    (hc' : w.daemon.clients[i]? = some c') (hi : i ≠ slot) (hleaf : c'.leaf = some id) :
    c.leaf ≠ some id :=
  fun hsame => hi (h.alone hbind hc' hc hleaf hsame)

theorem flush (h : Steadfast d₀ w) (hbind : Daemon.bind (.spawn size turns) size false = .ok d₀)
    (hbatch : w.batch = []) {d : Daemon} (hrun : Runs Act.Takes NoUpgrade d₀ d)
    (hflush : flushOutbound.exec w.daemon = (.ok (), d)) (hpays : Pays w (.act .flush)) :
    Steadfast d₀ (w.after .flush d) := by
  have hplain := h.plain hbind
  have hlive := liveIsData_runs hbind h.run
  have hflushed := fun id => flushed_purses hlive id
  have hfree : Free (purses (flushed w.daemon)) := by
    intro id hheld
    rw [hflushed] at hheld ⊢
    rw [h.free id hheld]
  rcases flush_cases hflush with ⟨hnone, hsession, hserved⟩ |
    ⟨l₁, c, l₂, k₁, hsplit, hslot, hfails, hsession, hclients, hserved⟩
  · rw [show w.after .flush d = ⟨d, w.lines, [], w.reading⟩ by
      rw [World.after, hnone, ← hbatch]]
    refine of_idle hrun (h.length.trans hserved.length_eq) (hsession ▸ hfree) fun i l c' hl hc' => ?_
    have hpair := forall₂_getElem? hserved i
    rw [hc'] at hpair
    cases hc : w.daemon.clients[i]? with
    | none =>
      rw [hc] at hpair
      cases hpair
    | some c =>
      rw [hc] at hpair
      obtain ⟨hserved⟩ := hpair
      refine (h.holds_idle hbatch hl hc).serve hserved (fun id hleaf => ?_) owed_idle
      rw [owed_live hplain (List.mem_of_getElem? hc) hleaf, hsession, hflushed]
      exact ⟨rfl, rfl, rfl⟩
  · have hafter : w.after .flush d = ⟨d, w.lines.eraseIdx l₁.length, [], w.reading⟩ := by
      rw [World.after, hslot, ← hbatch]
    have hc : w.daemon.clients[l₁.length]? = some c := by
      rw [hsplit, List.getElem?_append_right (Nat.le_refl _), Nat.sub_self]
      rfl
    have hwrites := hplain.writes c (List.mem_of_getElem? hc)
    have hliveFlushed := liveIsData_flushed hlive
    rw [Pays, hsplit, List.pairwise_append] at hpays
    obtain ⟨hbehind, -⟩ := List.pairwise_cons.mp hpays.2.1
    -- those behind it are left as they are, and lose what was taken for them
    have hothers : List.Forall₂ (fun a b => Served w.daemon a b ∨ a = b ∧ live (owed w.daemon a) = [])
        (w.daemon.clients.eraseIdx l₁.length) d.clients := by
      rw [hsplit, eraseIdx_split, hclients]
      exact List.rel_append (hserved.imp fun _ _ => .inl)
        (List.forall₂_same.mpr fun c' hc' => .inr ⟨rfl, hbehind c' hc' hfails⟩)
    rw [hafter]
    refine of_idle hrun ?_ (hsession ▸ hfree.leave hliveFlushed hwrites) fun i l c' hl hc' => ?_
    · rw [← hothers.length_eq]
      exact length_eraseIdx_congr h.length l₁.length
    · obtain ⟨j, hj, hslots⟩ := exists_slot l₁.length i
      have hpair := forall₂_getElem? hothers i
      rw [hslots] at hl
      rw [hslots, hc'] at hpair
      cases hc₀ : w.daemon.clients[j]? with
      | none =>
        rw [hc₀] at hpair
        cases hpair
      | some c₀ =>
        rw [hc₀] at hpair
        obtain ⟨hpair⟩ := hpair
        have hmem := List.mem_of_getElem? hc₀
        have hpurse : ∀ id, c₀.leaf = some id →
            purses d.session id = { purses w.daemon.session id with live := [] } := by
          intro id hleaf
          rw [hsession, leave_purses hliveFlushed hwrites, if_neg (h.elsewhere hbind hc hc₀ hj hleaf),
            hflushed]
        have hold := h.holds_idle hbatch hl hc₀
        rcases hpair with hserved | ⟨rfl, hnothing⟩
        · refine hold.serve hserved (fun id hleaf => ?_) owed_idle
          rw [owed_live hplain hmem hleaf, hpurse id hleaf]
          exact ⟨rfl, rfl, rfl⟩
        · refine hold.congr fun id hleaf => ?_
          rw [owed_live hplain hmem hleaf] at hnothing
          rw [hpurse id hleaf, ← hnothing]

/-- A connection ends, and what its host had yet to be heard with is harmless. -/
theorem drop (h : Steadfast d₀ w) (hbind : Daemon.bind (.spawn size turns) size false = .ok d₀)
    {slot reading : Nat} {c : Client} {batch : List Frame} (hc : w.daemon.clients[slot]? = some c)
    (hrun : Runs Act.Takes NoUpgrade d₀ (w.daemon.dropClient slot))
    (hbatch : ∀ f ∈ batch, Host.inert f = true)
    (hothers : ∀ i l b, i ≠ slot → w.lines[i]? = some l → w.daemon.clients[i]? = some b →
      Holds (purses w.daemon.session) [] l b) :
    Steadfast d₀ ⟨w.daemon.dropClient slot, w.lines.eraseIdx slot, batch, reading⟩ := by
  have hlive := liveIsData_runs hbind h.run
  have hwrites := (h.plain hbind).writes c (List.mem_of_getElem? hc)
  have hsession := session_dropClient hc
  have hclients := clients_dropClient w.daemon slot
  refine ⟨hrun, ?_, hsession ▸ h.free.leave hlive hwrites, [], .inr ⟨rfl, hbatch⟩, fun i l b hl hb => ?_⟩
  · rw [hclients]
    exact length_eraseIdx_congr h.length slot
  · obtain ⟨j, hj, hslots⟩ := exists_slot slot i
    rw [hclients] at hb
    rw [hslots] at hl hb
    rw [ite_self]
    refine (hothers j l b hj hl hb).congr fun id hleaf => ?_
    change purses (w.daemon.dropClient slot).session id = _
    rw [hsession, leave_purses hlive hwrites, if_neg (h.elsewhere hbind hc hb hj hleaf)]

theorem lost_dropClient {slot : Nat} {c : Client} (hc : w.daemon.clients[slot]? = some c) :
    w.lost (w.daemon.dropClient slot) = true := by
  have hlt := (List.getElem?_eq_some_iff.mp hc).1
  refine decide_eq_true ?_
  rw [clients_dropClient, List.length_eraseIdx_of_lt hlt]
  omega

theorem lost_of_length {d : Daemon} (h : d.clients.length = w.daemon.clients.length) :
    w.lost d = false :=
  decide_eq_false (h ▸ Nat.lt_irrefl _)

theorem inert_same {f : Frame} (h : Host.inert f = true) (c : Client) (p : Purse) :
    creditClient f c = c ∧ p.top f = p := by
  cases f with
  | attach | credit => cases h
  | data | resize | exit | refused | checkpoint | delta | resyncRequest => exact ⟨rfl, rfl⟩

theorem move (h : Steadfast d₀ w) {slot : Nat} {l l' : Line} {c c' : Client} {d : Daemon}
    {batch : List Frame} (hl : w.lines[slot]? = some l) (hc : w.daemon.clients[slot]? = some c)
    (hrun : Runs Act.Takes NoUpgrade d₀ d) (hclients : d.clients = w.daemon.clients.set slot c')
    (hfree : Free (purses d.session)) (hown : Holds (purses d.session) batch l' c')
    (hothers : ∀ i k b, i ≠ slot → w.lines[i]? = some k → w.daemon.clients[i]? = some b →
      Holds (purses d.session) [] k b) :
    Steadfast d₀ ⟨d, w.lines.set slot l', batch, slot⟩ := by
  have hlt := (List.getElem?_eq_some_iff.mp hl).1
  have hlt' := (List.getElem?_eq_some_iff.mp hc).1
  refine ⟨hrun, ?_, hfree, batch, .inl ⟨rfl, fun _ => ?_⟩, fun i k b hk hb => ?_⟩
  · rw [hclients, List.length_set, List.length_set]
    exact h.length
  · change slot < d.clients.length
    rwa [hclients, List.length_set]
  · change (w.lines.set slot l')[i]? = some k at hk
    rw [hclients] at hb
    change Holds (purses d.session) (if i = slot then batch else []) k b
    by_cases hi : i = slot
    · subst hi
      rw [List.getElem?_set_self hlt] at hk
      rw [List.getElem?_set_self hlt'] at hb
      obtain rfl := Option.some.inj hk
      obtain rfl := Option.some.inj hb
      rwa [if_pos rfl]
    · rw [List.getElem?_set_ne (fun h => hi h.symm)] at hk hb
      rw [if_neg hi]
      exact hothers i k b hi hk hb

theorem fetch (h : Steadfast d₀ w) (hbind : Daemon.bind (.spawn size turns) size false = .ok d₀)
    (hbatch : w.batch = []) {slot : Nat} {l : Line} {c : Client} {batch : List Frame} {d : Daemon}
    (hl : w.lines[slot]? = some l) (hc : w.daemon.clients[slot]? = some c)
    (hrun : Runs Act.Takes NoUpgrade d₀ d) (hfetch : (fetchFrames slot).exec w.daemon = (.ok batch, d))
    (hbrings : brings (c.stream.reads.headD .wouldBlock) socketBuf
      (l.host.stream.sent.drop l.told) = true) :
    Steadfast d₀ ⟨d, if w.lost d then w.lines.eraseIdx slot
      else w.lines.set slot { l with
        told := l.told + sizeOf (c.stream.reads.headD .wouldBlock) socketBuf }, batch, slot⟩ := by
  have hothers : ∀ i k b, i ≠ slot → w.lines[i]? = some k → w.daemon.clients[i]? = some b →
      Holds (purses w.daemon.session) [] k b := fun i k b _ hk hb => h.holds_idle hbatch hk hb
  have hstays : ∀ c' : Client, w.lost (w.daemon.setClients (w.daemon.clients.set slot c')) = false :=
    fun c' => lost_of_length List.length_set
  rcases fetch_cases hc hfetch with ⟨rfl, rfl⟩ | ⟨hread, rfl, rfl⟩ | ⟨bytes, decoder, hread, hpush, rfl⟩
  · rw [lost_dropClient hc, if_pos rfl]
    exact h.drop hbind hc hrun (fun f hf => absurd hf List.not_mem_nil) hothers
  · rw [hstays, if_neg Bool.false_ne_true, hread]
    exact h.move hl hc hrun rfl h.free ((h.holds_idle hbatch hl hc).unread _) hothers
  · rw [hstays, if_neg Bool.false_ne_true, hread]
    rw [hread] at hbrings
    obtain ⟨gs, decoder', hpush', htold⟩ :=
      (h.holds_idle hbatch hl hc).tell (List.isPrefixOf_iff_prefix.mp hbrings)
    rw [hpush] at hpush'
    obtain ⟨rfl, rfl⟩ := Prod.mk.inj (Except.ok.inj hpush')
    exact h.move hl hc hrun rfl h.free (htold _) hothers

/-- The daemon comes to a frame of the host at `reading`. -/
theorem dispatch_own (h : Steadfast d₀ w)
    (hbind : Daemon.bind (.spawn size turns) size false = .ok d₀) {m : Moment} {f : Frame}
    {batch : List Frame} {d : Daemon} {l : Line} {c : Client} (hl : w.lines[w.reading]? = some l)
    (hc : w.daemon.clients[w.reading]? = some c)
    (hholds : Holds (purses w.daemon.session) (f :: batch) l c)
    (hothers : ∀ i k b, i ≠ w.reading → w.lines[i]? = some k → w.daemon.clients[i]? = some b →
      Holds (purses w.daemon.session) [] k b) (hrun : Runs Act.Takes NoUpgrade d₀ d)
    (hdispatch : (dispatchFrame m w.reading f).exec w.daemon = (.ok (), d)) :
    Steadfast d₀ ⟨d, if w.lost d then w.lines.eraseIdx w.reading else w.lines, batch, w.reading⟩ := by
  have hwrites := (h.plain hbind).writes c (List.mem_of_getElem? hc)
  have hsame : w.lines.set w.reading l = w.lines := set_of_get hl
  have hkept : ∀ {c' : Client}, d.clients = w.daemon.clients.set w.reading c' → w.lost d = false :=
    fun hclients => lost_of_length ((congrArg List.length hclients).trans List.length_set)
  cases hleaf : c.leaf with
  | some id =>
    obtain ⟨fs, hwired, hbalanced⟩ := hholds
    have hgreets := hbalanced.greets
    rw [hleaf] at hgreets
    obtain ⟨hclients, hpurses⟩ :=
      own_purses (hgreets f List.mem_cons_self) hc hleaf hwrites hdispatch
    rw [hkept hclients, if_neg Bool.false_ne_true, ← hsame]
    refine h.move hl hc hrun hclients ?_ ?_ fun i k b hi hk hb => ?_
    · rw [hpurses]
      exact h.free.update id ((Purse.top_held _ f).trans (h.held hbind hc hleaf))
    · rw [hpurses]
      exact Holds.own ⟨fs, hwired, hbalanced⟩ hleaf
    · rw [hpurses]
      refine (hothers i k b hi hk hb).congr fun j hleaf' => update_of_ne ?_ _ _
      rintro rfl
      exact h.elsewhere hbind hc hb hi hleaf' hleaf
  | none =>
    obtain ⟨fs, hwired, hbalanced⟩ := hholds
    have hgreets := hbalanced.greets
    rw [hleaf] at hgreets
    obtain ⟨rest, hrest, heq | ⟨generation, sessionId, heq⟩⟩ := hgreets
    · -- the claim was refused, and what comes next ends the connection
      obtain ⟨rfl, htail⟩ := List.cons.inj heq
      have hnone : w.daemon.leafOf w.reading = none := by rw [leafOf, hc, Option.bind_some, hleaf]
      obtain rfl := dropped_of_none rfl hnone hdispatch
      rw [lost_dropClient hc, if_pos rfl]
      exact h.drop hbind hc hrun
        (fun g hg => hrest g (htail ▸ List.mem_append_left fs hg)) hothers
    · obtain ⟨rfl, -⟩ := List.cons.inj heq
      rcases attach_purses hc hleaf hdispatch with ⟨reason, rfl⟩ | ⟨id, taken, hheld, hclients, hpurses⟩
      · rw [hkept rfl, if_neg Bool.false_ne_true, ← hsame]
        exact h.move hl hc hrun rfl h.free (Holds.refuse ⟨fs, hwired, hbalanced⟩ hleaf reason) hothers
      · rw [hkept hclients, if_neg Bool.false_ne_true, ← hsame]
        refine h.move hl hc hrun hclients ?_ ?_ fun i k b hi hk hb => ?_
        · rw [hpurses]
          exact h.free.update id rfl
        · rw [hpurses]
          exact Holds.attach ⟨fs, hwired, hbalanced⟩ hleaf (h.free id hheld) taken
        · rw [hpurses]
          refine (hothers i k b hi hk hb).congr fun j hleaf' => update_of_ne ?_ _ _
          rintro rfl
          rw [h.held hbind hb hleaf'] at hheld
          cases hheld

theorem dispatch (h : Steadfast d₀ w) (hbind : Daemon.bind (.spawn size turns) size false = .ok d₀)
    {m : Moment} {f : Frame} {batch : List Frame} {d : Daemon} (hbatch : w.batch = f :: batch)
    (hrun : Runs Act.Takes NoUpgrade d₀ d)
    (hdispatch : (dispatchFrame m w.reading f).exec w.daemon = (.ok (), d)) :
    Steadfast d₀ ⟨d, if w.lost d then w.lines.eraseIdx w.reading else w.lines, batch, w.reading⟩ := by
  obtain ⟨mine, ⟨rfl, hreading⟩ | ⟨rfl, hinert⟩, hall⟩ := h.holds
  · have hlt := hreading (by rw [hbatch]; exact List.cons_ne_nil f batch)
    have hc : w.daemon.clients[w.reading]? = some _ := List.getElem?_eq_getElem hlt
    obtain ⟨l, hl⟩ := h.exists_line hc
    have hholds := hall _ l _ hl hc
    rw [if_pos rfl, hbatch] at hholds
    refine h.dispatch_own hbind hl hc hholds (fun i k b hi hk hb => ?_) hrun hdispatch
    have hother := hall i k b hk hb
    rwa [if_neg hi] at hother
  · -- the host at `reading` is not the one whose frames these are
    have hothers : ∀ (i : Nat) (k : Line) (b : Client), w.lines[i]? = some k →
        w.daemon.clients[i]? = some b → Holds (purses w.daemon.session) [] k b := by
      intro i k b hk hb
      have hother := hall i k b hk hb
      rwa [ite_self] at hother
    rw [hbatch] at hinert
    obtain ⟨hf, hrest⟩ := List.forall_mem_cons.mp hinert
    have hattach := isAttach_inert hf
    -- nothing has moved
    have hsame : d.clients = w.daemon.clients → purses d.session = purses w.daemon.session →
        Steadfast d₀ ⟨d, if w.lost d then w.lines.eraseIdx w.reading else w.lines, batch,
          w.reading⟩ := by
      intro hclients hpurses
      rw [lost_of_length (congrArg List.length hclients), if_neg Bool.false_ne_true]
      refine ⟨hrun, h.length.trans (congrArg List.length hclients.symm), hpurses ▸ h.free, [],
        .inr ⟨rfl, hrest⟩, fun i k b hk hb => ?_⟩
      change Holds (purses d.session) _ k b
      rw [ite_self, hpurses]
      exact hothers i k b hk (hclients ▸ hb)
    cases hc : w.daemon.clients[w.reading]? with
    | none =>
      have hnone : w.daemon.leafOf w.reading = none := by rw [leafOf, hc, Option.bind_none]
      obtain rfl := dropped_of_none hattach hnone hdispatch
      exact hsame (by rw [dropClient_of_none hc]) (by rw [dropClient_of_none hc])
    | some c =>
      cases hleaf : c.leaf with
      | none =>
        have hnone : w.daemon.leafOf w.reading = none := by rw [leafOf, hc, Option.bind_some, hleaf]
        obtain rfl := dropped_of_none hattach hnone hdispatch
        rw [lost_dropClient hc, if_pos rfl]
        exact h.drop hbind hc hrun hrest fun i k b _ hk hb => hothers i k b hk hb
      | some id =>
        have hwrites := (h.plain hbind).writes c (List.mem_of_getElem? hc)
        obtain ⟨hclients, hpurses⟩ := own_purses hattach hc hleaf hwrites hdispatch
        obtain ⟨hclient, htop⟩ := inert_same hf c (purses w.daemon.session id)
        refine hsame ?_ ?_
        · rw [hclients, hclient, set_of_get hc]
        · rw [hpurses, htop]
          exact update_eq_self id _

-- ---------------------------------------------------------------------------
-- Every step
-- ---------------------------------------------------------------------------

theorem act (h : Steadfast d₀ w) (hbind : Daemon.bind (.spawn size turns) size false = .ok d₀)
    (hbatch : w.batch = []) {a : Act} {d : Daemon} (hpays : Pays w (.act a)) (hapart : apart a = true)
    (htakes : a.Takes w.daemon d) : Steadfast d₀ (w.after a d) := by
  have hrun := h.tail hbind htakes
  obtain ⟨-, hexec⟩ := htakes
  cases a with
  | accept | fetch | frame => cases hapart
  | spawn turns =>
    obtain ⟨hclients, hpurses⟩ := spawn_purses hexec
    exact h.quiet hbatch hrun hclients hpurses
  | reap m id =>
    obtain ⟨hclients, hpurses⟩ := reap_purses hexec
    exact h.quiet hbatch hrun hclients hpurses
  | resync id =>
    obtain ⟨hclients, hpurses⟩ := resync_purses hexec
    exact h.quiet hbatch hrun hclients hpurses
  | flush => exact h.flush hbind hbatch hrun hexec hpays
  | drain id =>
    have hexec : (do let _ ← drainOnce id : DaemonM Unit).exec w.daemon = (.ok (), d) := hexec
    rw [Op.exec_bind] at hexec
    rcases hdrain : (drainOnce id).exec w.daemon with ⟨e | more, d'⟩
    · rw [hdrain] at hexec
      cases hexec
    · rw [hdrain] at hexec
      obtain ⟨-, rfl⟩ := Prod.mk.inj hexec
      exact h.drain hbind hbatch hrun hdrain

theorem step (h : Steadfast d₀ w) (hbind : Daemon.bind (.spawn size turns) size false = .ok d₀)
    {e : Event} {w' : World} (hpays : Pays w e) (htakes : w.Takes e w') : Steadfast d₀ w' := by
  unfold World.Takes at htakes
  cases e with
  | connect down up surface sessionId =>
    rw [World.step] at htakes
    split at htakes
    case isFalse => cases htakes
    case isTrue hready =>
      split at htakes
      case h_2 => cases htakes
      case h_1 host hhost =>
        simp only [Bool.and_eq_true, List.isEmpty_iff] at hready
        obtain ⟨⟨hbatch, -⟩, hup⟩ := hready
        obtain rfl := Option.some.inj htakes
        exact h.connect hbind hbatch hup hhost
  | call slot call =>
    obtain ⟨l, hl, htakes⟩ := Option.bind_eq_some_iff.mp htakes
    split at htakes
    case isFalse => cases htakes
    case isTrue hready =>
      simp only [Bool.and_eq_true, decide_eq_true_eq] at hready
      obtain rfl := Option.some.inj htakes
      exact h.setLine hl fun c ahead _ hholds => hholds.call hready.2
  | pump slot =>
    obtain ⟨l, hl, htakes⟩ := Option.bind_eq_some_iff.mp htakes
    split at htakes
    case isFalse => cases htakes
    case isTrue hready =>
      obtain rfl := Option.some.inj htakes
      exact h.setLine hl fun c ahead _ hholds => hholds.start (Option.isNone_iff_eq_none.mp hready)
  | read slot =>
    obtain ⟨l, hl, htakes⟩ := Option.bind_eq_some_iff.mp htakes
    obtain ⟨c, hc, htakes⟩ := Option.bind_eq_some_iff.mp htakes
    obtain ⟨fed, hfed, htakes⟩ := Option.bind_eq_some_iff.mp htakes
    dsimp only at htakes
    split at htakes
    case isFalse => cases htakes
    case isTrue hready =>
      simp only [Bool.and_eq_true, List.isEmpty_iff] at hready
      obtain rfl := Option.some.inj htakes
      refine h.setLine hl fun c' ahead hc' hholds => ?_
      obtain rfl := Option.some.inj (hc.symm.trans hc')
      exact hholds.read hfed hready.1 hready.2 (hpays l hl)
  | receive slot =>
    obtain ⟨l, hl, htakes⟩ := Option.bind_eq_some_iff.mp htakes
    obtain ⟨c, hc, htakes⟩ := Option.bind_eq_some_iff.mp htakes
    obtain ⟨fed, hfed, htakes⟩ := Option.bind_eq_some_iff.mp htakes
    split at htakes
    case isTrue => cases htakes
    case isFalse =>
      obtain rfl := Option.some.inj htakes
      refine h.setLine hl fun c' ahead hc' hholds => ?_
      obtain rfl := Option.some.inj (hc.symm.trans hc')
      exact hholds.receive hfed (hpays l hl c hc fed hfed)
  | fetch slot =>
    obtain ⟨l, hl, htakes⟩ := Option.bind_eq_some_iff.mp htakes
    obtain ⟨c, hc, htakes⟩ := Option.bind_eq_some_iff.mp htakes
    dsimp only at htakes
    split at htakes
    case isFalse => cases htakes
    case isTrue hready =>
      simp only [Bool.and_eq_true, List.isEmpty_iff] at hready
      rcases hfetch : (fetchFrames slot).exec w.daemon with ⟨e | batch, d⟩
      · rw [hfetch] at htakes
        cases htakes
      · rw [hfetch] at htakes
        obtain rfl := Option.some.inj htakes
        have hact : (Act.fetch slot).Takes w.daemon d := by
          refine ⟨trivial, ?_⟩
          rw [Act.run, Op.exec_bind, hfetch]
          rfl
        exact h.fetch hbind hready.1 hl hc (h.tail hbind hact) hfetch hready.2
  | dispatch m =>
    rw [World.step] at htakes
    split at htakes
    case h_1 => cases htakes
    case h_2 frame batch hbatch =>
      rcases hdispatch : (dispatchFrame m w.reading frame).exec w.daemon with ⟨e | _, d⟩
      · rw [hdispatch] at htakes
        cases htakes
      · rw [hdispatch] at htakes
        obtain rfl := Option.some.inj htakes
        have hact : (Act.frame m w.reading frame).Takes w.daemon d := ⟨trivial, hdispatch⟩
        exact h.dispatch hbind hbatch (h.tail hbind hact) hdispatch
  | act a =>
    rw [World.step] at htakes
    split at htakes
    case isFalse => cases htakes
    case isTrue hready =>
      simp only [Bool.and_eq_true, List.isEmpty_iff, decide_eq_true_eq] at hready
      obtain ⟨⟨hbatch, hapart⟩, henabled⟩ := hready
      rcases hexec : a.run.exec w.daemon with ⟨e | _, d⟩
      · rw [hexec] at htakes
        cases htakes
      · rw [hexec] at htakes
        obtain rfl := Option.some.inj htakes
        exact h.act hbind hbatch hpays hapart ⟨henabled, hexec⟩

/-- Of every client that is attached, the window is where it should be. -/
theorem conserved (h : Steadfast d₀ w) : w.Conserved := by
  intro slot l c id s hl hc hleaf hs
  obtain ⟨mine, hmine, hall⟩ := h.holds
  obtain ⟨fs, hwired, hbalanced⟩ := hall slot l c hl hc
  have hwindow := hbalanced.window id hleaf
  have hpurse : purses w.daemon.session id = purseOf (some s) := by rw [purses, hs]
  -- what is left of a read for a host that is gone grants nothing
  have hbatch : grants (if slot = w.reading then w.batch else []) =
      grants (if slot = w.reading then mine else []) := by
    by_cases hslot : slot = w.reading
    · rw [if_pos hslot, if_pos hslot]
      rcases hmine with ⟨rfl, -⟩ | ⟨rfl, hinert⟩
      · rfl
      · exact grants_inert hinert
    · rw [if_neg hslot, if_neg hslot]
  have hcoming : grants (w.coming slot l c) = grants (if slot = w.reading then mine else []) + grants fs := by
    rw [World.coming, hwired.up_eq, grants_append, hbatch]
  rw [hpurse, grants_append, ← hcoming] at hwindow
  have hwindow : s.credit + (live s.outbound).length + (live (c.log.drop l.passed)).length +
      (live (l.owed ++ l.feeding)).length + grants (w.coming slot l c) = windowSize := hwindow
  unfold outstanding
  change _ = windowSize ∧ _ ≤ windowSize
  omega

end Steadfast

namespace World

/-- Where what is fed is what was charged, and nothing charged is lost, the window is what it was
when the host connected. -/
theorem window_conserved {turns : List Turn} {size : Winsize} {d₀ : Daemon} {w : World}
    (hbind : Daemon.bind (.spawn size turns) size false = .ok d₀)
    (hrun : Runs Takes Pays (.new d₀) w) : w.Conserved := by
  have hsteadfast : Steadfast d₀ w :=
    Runs.invariant (fun _ _ _ h => h.step hbind) hrun (.new hbind)
  exact hsteadfast.conserved

def threeLetters : List Turn := [⟨[97, 98, 99], none, none, none⟩]

/-- A host that attaches; each end reads what the other has sent it by then. -/
def attaching (reads : List Read) : List Event :=
  [.connect
      ⟨[.data ((Frame.attachWriter 1 none).wire ++ (Frame.credit Host.creditWindow).wire)],
        [.accept 1000, .accept 1000], []⟩
      ⟨reads, [.accept 100, .accept 100, .accept 100], []⟩ ⟨1, 1, none⟩ none,
    .fetch 0, .dispatch ⟨0, 3600⟩, .dispatch ⟨0, 3600⟩]

/-- The session's credit, what is outstanding and what is granted on its way. -/
def accountAt (w : World) (slot : Nat) : Option (Nat × Nat × Nat) := do
  let l ← w.lines[slot]?
  let c ← w.daemon.clients[slot]?
  let id ← c.leaf
  let s ← w.daemon.session id
  some (s.credit, outstanding l c s, grants (w.coming slot l c))

theorem window_conserved_threeLetters :
    ∃ d₀ w, Daemon.bind (.spawn ⟨1, 1, 0, 0⟩ threeLetters) ⟨1, 1, 0, 0⟩ false = .ok d₀ ∧
      Runs Takes Pays (.new d₀) w ∧ w.accountAt 0 = some (262141, 0, 3) ∧ w.Conserved := by
  obtain ⟨d₀, w, hbind, hrun, hfound⟩ := exists_followed Pays threeLetters ⟨1, 1, 0, 0⟩
    (attaching [.data (Frame.data [97, 98, 99]).wire, .wouldBlock] ++
      [.act (.drain ⟨1⟩), .act .flush, .pump 0, .read 0, .receive 0, .read 0])
    (p := fun w => w.accountAt 0 = some (262141, 0, 3)) (by decide +kernel)
  exact ⟨d₀, w, hbind, hrun, of_decide_eq_true hfound, window_conserved hbind hrun⟩

/-- The repaint that a host is sent when it attaches comes on top of the window. -/
theorem window_grows :
    ∃ d₀ w, Daemon.bind (.spawn ⟨1, 1, 0, 0⟩ threeLetters) ⟨1, 1, 0, 0⟩ false = .ok d₀ ∧
      AllRuns Takes (.new d₀) w ∧ w.accountAt 0 = some (262144, 0, 17) ∧ ¬ w.Conserved := by
  obtain ⟨d₀, w, hbind, hrun, hfound⟩ := exists_followed (fun _ _ => True) threeLetters ⟨1, 1, 0, 0⟩
    (attaching [.data (Frame.data [27, 91, 50, 74, 27, 91, 72, 27, 91, 48, 109, 27, 91, 49, 59, 49,
      72]).wire, .wouldBlock] ++ [.act (.resync ⟨1⟩), .act .flush, .pump 0, .read 0, .receive 0, .read 0])
    (p := fun w => w.accountAt 0 = some (262144, 0, 17)) (by decide +kernel)
  have hfound := of_decide_eq_true hfound
  refine ⟨d₀, w, hbind, hrun, hfound, fun hconserved => ?_⟩
  obtain ⟨l, hl, h⟩ := Option.bind_eq_some_iff.mp hfound
  obtain ⟨c, hc, h⟩ := Option.bind_eq_some_iff.mp h
  obtain ⟨id, hleaf, h⟩ := Option.bind_eq_some_iff.mp h
  obtain ⟨s, hs, h⟩ := Option.bind_eq_some_iff.mp h
  obtain ⟨hsum, -⟩ := hconserved 0 l c id s hl hc hleaf hs
  obtain ⟨hcredit, hrest⟩ := Prod.mk.inj (Option.some.inj h)
  obtain ⟨hout, hgrants⟩ := Prod.mk.inj hrest
  rw [hcredit, hout, hgrants] at hsum
  revert hsum
  decide

end World

end Rill.Link
