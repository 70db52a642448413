import Rill.Daemon.Render
import Rill.Kernel.Alike
import Rill.Lib.Couple

/-!
# Leaves are kept apart

Two daemons, in the same hands, whose leaf `b` has children that write different
bytes in the same amounts. A client that was never on `b` is owed the same bytes
by both, whatever the daemons do.
-/

namespace Rill.Daemon

open Lib Lib.Op Attach Kernel Vt

-- ---------------------------------------------------------------------------
-- Clients
-- ---------------------------------------------------------------------------

namespace Client

/-- `c'` is `c` but for what it is owed and was sent. -/
structure Owes (c c' : Client) : Prop where
  reads : c'.stream.reads = c.stream.reads
  writes : ∀ w ∈ c'.stream.writes, w ∈ c.stream.writes
  decoder : c'.decoder = c.decoder
  leaf : c'.leaf = c.leaf
  observe : c'.observe = c.observe
  protocol : c'.protocol = c.protocol
  credit : c'.credit = c.credit
  leaves : c'.leaves = c.leaves

theorem Owes.refl (c : Client) : Owes c c := ⟨rfl, fun _ h => h, rfl, rfl, rfl, rfl, rfl, rfl⟩

theorem Owes.push {c c' : Client} (h : Owes c c') (q : Queued) (bytes : List UInt8) :
    Owes c (c'.push q bytes) := { h with }

theorem owes_send (c : Client) (q : Queued) : Op.Keeps (Owes c) (send q) :=
  .bind (.lift _) fun _ => .modify fun _ h => h.push q _

theorem writes_writeLoop (writes : List Write) (outbox sent : List UInt8) :
    ∀ w ∈ (writeLoop writes outbox sent).2.1, w ∈ writes := by
  induction writes generalizing outbox sent with
  | nil => exact fun w hw => hw
  | cons write writes ih =>
    have hrest : ∀ w ∈ writes, w ∈ write :: writes := fun w hw => List.mem_cons_of_mem _ hw
    unfold writeLoop
    split
    · exact fun w hw => hw
    · split
      · split
        · exact hrest
        · exact fun w hw => hrest w (ih _ _ w hw)
      · exact hrest
      · exact hrest

theorem ok_writeLoop {writes : List Write} (h : Write.failed ∉ writes) (outbox sent : List UInt8) :
    (writeLoop writes outbox sent).1 = true := by
  induction writes generalizing outbox sent with
  | nil => rfl
  | cons write writes ih =>
    have ih := ih fun hw => h (List.mem_cons_of_mem _ hw)
    unfold writeLoop
    split
    · rfl
    · cases write with
      | accept n =>
        dsimp only
        split
        · rfl
        · exact ih _ _
      | wouldBlock => rfl
      | failed => exact absurd List.mem_cons_self h

theorem owes_writeOutbox (c : Client) : Op.Keeps (Owes c) writeOutbox := by
  intro c' h
  rw [writeOutbox, exec_get_bind]
  have hwrites := writes_writeLoop c'.stream.writes c'.outbox c'.stream.sent
  generalize writeLoop c'.stream.writes c'.outbox c'.stream.sent = out at hwrites ⊢
  obtain ⟨ok, writes, outbox, sent⟩ := out
  dsimp only at hwrites ⊢
  rw [exec_modify_bind]
  have hnext : Owes c { c' with stream := { c'.stream with writes, sent }, outbox } :=
    { h with writes := fun w hw => h.writes w (hwrites w hw) }
  cases ok with
  | true => exact hnext
  | false => exact hnext

theorem owes_serve (c : Client) (frames : List Queued) : Op.Keeps (Owes c) (serve frames) := by
  refine .bind .get fun d => ?_
  exact .bind (.mapError _ (.forM (owes_send c) _)) fun _ => owes_writeOutbox c

/-- Nothing but a frame too large stops a client whose writes do not fail. -/
theorem serve_outcome {c : Client} (h : Write.failed ∉ c.stream.writes) (frames : List Queued) :
    ((serve frames).exec c).1 = .ok () ∨ ∃ e, ((serve frames).exec c).1 = .error (.encode e) := by
  rw [serve, exec_get_bind, exec_bind, exec_mapError]
  have howes := Op.Keeps.forM (owes_send c) (c.due frames) c (.refl c)
  rcases hsend : ((c.due frames).forM send).exec c with ⟨e | _, c'⟩
  · exact .inr ⟨e, rfl⟩
  · rw [hsend] at howes
    have hok := ok_writeLoop (fun hw => h (howes.writes _ hw)) c'.outbox c'.stream.sent
    left
    change (writeOutbox.exec c').1 = .ok ()
    rw [writeOutbox, exec_get_bind]
    generalize writeLoop c'.stream.writes c'.outbox c'.stream.sent = out at hok ⊢
    obtain ⟨ok, writes, outbox, sent⟩ := out
    dsimp only at hok ⊢
    rw [exec_modify_bind, hok]
    rfl

/-- A connection to both daemons. One that was never on `b` is the same client. -/
structure Alike (b : SessionId) (c d : Client) : Prop where
  reads : c.stream.reads = d.stream.reads
  writes : Write.failed ∉ c.stream.writes ∧ Write.failed ∉ d.stream.writes
  decoder : c.decoder = d.decoder
  leaf : c.leaf = d.leaf
  observe : c.observe = d.observe
  protocol : c.protocol = d.protocol
  credit : c.credit = d.credit
  leaves : c.leaves = d.leaves
  was : c.leaf = some b → b ∈ c.leaves
  same : b ∉ c.leaves → c = d

namespace Alike

variable {b : SessionId} {c d c' d' : Client}

theorem of_owes (h : Alike b c d) (hc : Owes c c') (hd : Owes d d') (hsame : b ∉ c.leaves → c' = d') :
    Alike b c' d' where
  reads := hc.reads.trans (h.reads.trans hd.reads.symm)
  writes := ⟨fun hw => h.writes.1 (hc.writes _ hw), fun hw => h.writes.2 (hd.writes _ hw)⟩
  decoder := hc.decoder.trans (h.decoder.trans hd.decoder.symm)
  leaf := hc.leaf.trans (h.leaf.trans hd.leaf.symm)
  observe := hc.observe.trans (h.observe.trans hd.observe.symm)
  protocol := hc.protocol.trans (h.protocol.trans hd.protocol.symm)
  credit := hc.credit.trans (h.credit.trans hd.credit.symm)
  leaves := hc.leaves.trans (h.leaves.trans hd.leaves.symm)
  was hleaf := by
    rw [hc.leaves]
    exact h.was (hc.leaf.symm.trans hleaf)
  same hb := hsame (hc.leaves ▸ hb)

/-- What is put in the outboxes may differ only for a client that was on `b`. -/
theorem ends {bad : ε → Prop} {m n : Op Client ε Unit} (h : Alike b c d) (hm : Op.Keeps (Owes c) m)
    (hn : Op.Keeps (Owes d) n)
    (hok : (m.exec c).1 = .ok () ∨ ∃ e, bad e ∧ (m.exec c).1 = .error e)
    (hok' : (n.exec d).1 = .ok () ∨ ∃ e, bad e ∧ (n.exec d).1 = .error e)
    (hsame : b ∉ c.leaves → m.exec c = n.exec c) :
    Ends bad (Alike b) Eq (m.exec c) (n.exec d) := by
  have hc := hm c (.refl c)
  have hd := hn d (.refl d)
  have hboth : b ∉ c.leaves → (m.exec c).2 = (n.exec d).2 := fun hb => by rw [hsame hb, ← h.same hb]
  rcases hrun : m.exec c with ⟨r, c'⟩
  rcases hrun' : n.exec d with ⟨r', d'⟩
  rw [hrun] at hok hc hboth
  rw [hrun'] at hok' hd hboth
  obtain rfl | ⟨e, hbad, rfl⟩ := hok
  · obtain rfl | ⟨e, hbad, rfl⟩ := hok'
    · exact .ok rfl (h.of_owes hc hd hboth)
    · exact .right hbad
  · exact .left hbad

theorem outcome {r : Except ε Unit} : r = .ok () ∨ ∃ e, True ∧ r = .error e := by
  cases r with
  | ok => exact .inl rfl
  | error e => exact .inr ⟨e, trivial, rfl⟩

theorem send {q q' : Queued} (h : Alike b c d) (hsame : b ∉ c.leaves → q = q') :
    Ends (fun _ => True) (Alike b) Eq ((send q).exec c) ((send q').exec d) :=
  h.ends (owes_send c q) (owes_send d q') outcome outcome fun hb => by rw [hsame hb]

theorem serve {frames frames' : List Queued} (h : Alike b c d) (hsame : b ∉ c.leaves → frames = frames') :
    Ends (fun stop => stop ≠ .write) (Alike b) Eq ((serve frames).exec c) ((serve frames').exec d) := by
  have hfits : ∀ {r : Except Stop Unit}, r = .ok () ∨ (∃ e, r = .error (.encode e)) →
      r = .ok () ∨ ∃ stop, stop ≠ .write ∧ r = .error stop := by
    rintro r (hr | ⟨e, hr⟩)
    · exact .inl hr
    · exact .inr ⟨.encode e, nofun, hr⟩
  exact h.ends (owes_serve c frames) (owes_serve d frames') (hfits (serve_outcome h.writes.1 frames))
    (hfits (serve_outcome h.writes.2 frames')) fun hb => by rw [hsame hb]

theorem spend (h : Alike b c d) (n : Nat) : Alike b (c.spend n) (d.spend n) :=
  { h with
    credit := congrArg (· - n) h.credit
    same := fun hb => congrArg (fun c => c.spend n) (h.same hb) }

theorem fanout {id : SessionId} {offset offset' start start' : Nat} {bytes bytes' : List UInt8}
    (h : Alike b c d) (hlen : SameLength bytes bytes')
    (hsame : id ≠ b → offset = offset' ∧ start = start' ∧ bytes = bytes') :
    Ends (fun _ => True) (Alike b) Eq ((fanout id offset start bytes).exec c)
      ((fanout id offset' start' bytes').exec d) := by
  rw [exec_fanout, exec_fanout, ← h.leaf, ← h.credit, ← hlen.eq]
  split
  case isTrue hgets =>
    refine (h.spend bytes.length).send fun hb => ?_
    have hid : id ≠ b := fun hid => hb (h.was (hid ▸ hgets.1))
    obtain ⟨rfl, rfl, rfl⟩ := hsame hid
    rw [h.same hb]
  case isFalse => exact .ok rfl h

theorem read (h : Alike b c d) (n : Nat) :
    (c.read n).1 = (d.read n).1 ∧ Alike b (c.read n).2 (d.read n).2 := by
  have hrest : Alike b { c with stream := { c.stream with reads := c.stream.reads.tail } }
      { d with stream := { d.stream with reads := d.stream.reads.tail } } :=
    { h with
      reads := congrArg List.tail h.reads
      same := fun hb => by rw [h.same hb] }
  unfold Client.read
  dsimp only
  rw [h.reads] at hrest ⊢
  split
  · exact ⟨rfl, hrest⟩
  · exact ⟨rfl, hrest⟩

end Alike

end Client

-- ---------------------------------------------------------------------------
-- The two daemons
-- ---------------------------------------------------------------------------

/-- Two daemons that differ in what the child of leaf `b` writes, and in what they
make of it. -/
structure Twins (b : SessionId) (d e : Daemon) : Prop where
  kernel : Kernel.Alike b d.kernel e.kernel
  defaultId : d.defaultId = e.defaultId
  clients : List.Forall₂ (Client.Alike b) d.clients e.clients
  chip : d.chip.screen.cols = e.chip.screen.cols ∧ d.chip.screen.rows = e.chip.screen.rows
  isWorker : d.isWorker = e.isWorker
  size : d.size = e.size

/-- A frame that is too large to be sent stops a daemon. -/
def TooLarge (e : Error) : Prop := ∃ a, e = .attach a

abbrev Mirrors (b : SessionId) (Q : α → β → Prop) (m : DaemonM α) (n : DaemonM β) : Prop :=
  Couples TooLarge (Twins b) Q m n

namespace Twins

variable {b : SessionId} {d e : Daemon}

theorem session (h : Twins b d e) (id : SessionId) :
    Option.Rel (SameLeaf b id) (d.session id) (e.session id) := h.kernel.leaves id

theorem session_eq (h : Twins b d e) {id : SessionId} (hid : id ≠ b) : d.session id = e.session id := by
  have hs := h.session id
  generalize d.session id = o at hs
  generalize e.session id = o' at hs
  cases hs with
  | none => rfl
  | some hst => exact congrArg some (hst.2 hid)

theorem taken (h : Twins b d e) {id : SessionId} (hid : id ≠ b) : taken d id = taken e id := by
  rw [Daemon.taken, Daemon.taken, h.session_eq hid]

theorem client (h : Twins b d e) (idx : Nat) :
    Option.Rel (Client.Alike b) d.clients[idx]? e.clients[idx]? := forall₂_getElem? h.clients idx

theorem attached (h : Twins b d e) (id : SessionId) : d.attached id = e.attached id :=
  h.kernel.attached id

theorem leafOf (h : Twins b d e) (idx : Nat) : d.leafOf idx = e.leafOf idx := by
  have hc := h.client idx
  unfold Daemon.leafOf
  generalize d.clients[idx]? = o at hc
  generalize e.clients[idx]? = o' at hc
  cases hc with
  | none => rfl
  | some hc => exact hc.leaf

theorem observes (h : Twins b d e) (idx : Nat) : d.observes idx = e.observes idx := by
  have hc := h.client idx
  unfold Daemon.observes
  generalize d.clients[idx]? = o at hc
  generalize e.clients[idx]? = o' at hc
  cases hc with
  | none => rfl
  | some hc => exact hc.observe

theorem isSome_session (h : Twins b d e) (id : SessionId) :
    (d.session id).isSome = (e.session id).isSome := by
  have hs := h.session id
  generalize d.session id = o at hs
  generalize e.session id = o' at hs
  cases hs <;> rfl

theorem resolveAttach (h : Twins b d e) (sessionId : Option UInt64) :
    d.resolveAttach sessionId = e.resolveAttach sessionId := by
  cases sessionId with
  | none => exact congrArg some h.defaultId
  | some raw =>
    unfold Daemon.resolveAttach
    dsimp only
    rw [h.isSome_session]

theorem childAlive (h : Twins b d e) (id : SessionId) : childAlive d id = childAlive e id := by
  have hs := h.session id
  unfold Daemon.childAlive
  generalize d.session id = o at hs
  generalize e.session id = o' at hs
  cases hs with
  | none => rfl
  | some hs => exact congrArg Option.isNone hs.1.childExit

theorem hasProtocol2 (h : Twins b d e) (id : SessionId) : hasProtocol2 d id = hasProtocol2 e id := by
  have hclients := h.clients
  unfold Daemon.hasProtocol2
  generalize d.clients = l at hclients
  generalize e.clients = l' at hclients
  induction hclients with
  | nil => rfl
  | cons hc _ ih => rw [List.any_cons, List.any_cons, ih, hc.leaf, hc.protocol]

theorem protocol1WriterCredit (h : Twins b d e) (id : SessionId) :
    protocol1WriterCredit d.clients id = protocol1WriterCredit e.clients id := by
  have hclients := h.clients
  have hcredits : ∀ {l l' : List Client}, List.Forall₂ (Client.Alike b) l l' →
      (l.filter fun c => c.isWriter id && c.protocol ≠ protocol2).map Client.credit =
        (l'.filter fun c => c.isWriter id && c.protocol ≠ protocol2).map Client.credit := by
    intro l l' hl
    induction hl with
    | nil => rfl
    | @cons c c' _ _ hc _ ih =>
      have hwriter : c.isWriter id = c'.isWriter id := by
        rw [Client.isWriter, Client.isWriter, hc.leaf, hc.observe]
      rw [List.filter_cons, List.filter_cons, hwriter, hc.protocol]
      split
      · rw [List.map_cons, List.map_cons, ih, hc.credit]
      · exact ih
  rw [Daemon.protocol1WriterCredit, Daemon.protocol1WriterCredit, hcredits hclients]

theorem claimed (h : Twins b d e) :
    d.clients.filterMap Client.leaf = e.clients.filterMap Client.leaf := by
  have hclients := h.clients
  generalize d.clients = l at hclients
  generalize e.clients = l' at hclients
  induction hclients with
  | nil => rfl
  | cons hc _ ih => rw [List.filterMap_cons, List.filterMap_cons, hc.leaf, ih]

-- ---------------------------------------------------------------------------
-- Setters
-- ---------------------------------------------------------------------------

theorem setKernel (h : Twins b d e) {k l : Kernel} (hk : Kernel.Alike b k l) :
    Twins b (d.setKernel k) (e.setKernel l) := { h with kernel := hk }

theorem setChip (h : Twins b d e) {chip chip' : VtEngine}
    (hchip : chip.screen.cols = chip'.screen.cols ∧ chip.screen.rows = chip'.screen.rows) :
    Twins b (d.setChip chip) (e.setChip chip') := { h with chip := hchip }

theorem modifyClient (h : Twins b d e) {idx : Nat} {f g : Client → Client}
    (hfg : ∀ c c', d.clients[idx]? = some c → e.clients[idx]? = some c' → Client.Alike b c c' →
      Client.Alike b (f c) (g c')) :
    Twins b (d.modifyClient idx f) (e.modifyClient idx g) :=
  { h with clients := forall₂_modify h.clients hfg }

theorem dropClient (h : Twins b d e) (idx : Nat) : Twins b (d.dropClient idx) (e.dropClient idx) := by
  have hc := h.client idx
  have herase := forall₂_eraseIdx h.clients idx
  unfold Daemon.dropClient
  generalize d.clients[idx]? = o at hc
  generalize e.clients[idx]? = o' at hc
  cases hc with
  | none => exact h
  | @some c c' hc =>
    refine { h with clients := herase, kernel := ?_ }
    dsimp only [Daemon.setClients, Daemon.setKernel]
    rw [hc.leaf, hc.observe]
    cases c'.leaf with
    | none => exact h.kernel
    | some id =>
      have hs := h.session id
      dsimp only
      cases hd : d.session id with
      | none =>
        rw [hd] at hs
        cases he : e.session id with
        | none => exact h.kernel
        | some t =>
          rw [he] at hs
          exact nomatch hs
      | some s =>
        rw [hd] at hs
        cases he : e.session id with
        | none =>
          rw [he] at hs
          exact nomatch hs
        | some t =>
          rw [he] at hs
          cases hs with
          | some hst =>
            refine h.kernel.setSession hd he ⟨?_, fun hid => by rw [hst.2 hid]⟩
            unfold releaseRole
            split
            · exact { hst.1 with }
            · exact hst.1.detach

theorem acceptClient (h : Twins b d e) {stream : Stream} (hwrites : Write.failed ∉ stream.writes) :
    Twins b (d.acceptClient stream) (e.acceptClient stream) := by
  have hnew : Client.Alike b (.new stream) (.new stream) :=
    ⟨rfl, ⟨hwrites, hwrites⟩, rfl, rfl, rfl, rfl, rfl, rfl, nofun, fun _ => rfl⟩
  exact { h with clients := List.rel_append h.clients (.cons hnew .nil) }

-- ---------------------------------------------------------------------------
-- Calls on one leaf and on one client
-- ---------------------------------------------------------------------------

theorem onKernel {bad : Error → Prop} {m n : Op Kernel Kernel.Error α}
    (h : Couples (fun _ => False) (Kernel.Alike b) Q m n) :
    Couples bad (Twins b) Q (onKernel m) (onKernel n) :=
  .mapError _ (fun _ hbad => hbad.elim)
    (.on h (fun _ _ h => h.kernel) fun _ _ h _ _ hk => h.setKernel hk)

theorem onLeaf {id : SessionId} {missing : α} {m n : Op Session Kernel.Error α}
    (hmn : Couples (fun _ => False) (SameLeaf b id) Q m n) (hmissing : Q missing missing) :
    Mirrors b Q (onLeaf id missing m) (onLeaf id missing n) := by
  refine .get_bind fun d e h => ?_
  have hs := h.session id
  generalize d.session id = o at hs
  generalize e.session id = o' at hs
  cases hs with
  | none => exact .ok hmissing h
  | some _ => exact onKernel (Kernel.Alike.onSession hmn) d e h

theorem onSame {id : SessionId} {m : Op Session Kernel.Error α} (h : Session.Mirrors Q m) {missing : α}
    (hmissing : Q missing missing) :
    Mirrors b (SameResult b id Q) (Daemon.onLeaf id missing m) (Daemon.onLeaf id missing m) :=
  onLeaf (h.refine (id ≠ b)) ⟨hmissing, fun _ => rfl⟩

theorem onClient {idx : Nat} {m n : Op Client Attach.Error Unit} (h : Twins b d e)
    (hmn : ∀ c c', d.clients[idx]? = some c → Client.Alike b c c' →
      Ends (fun _ => True) (Client.Alike b) Eq (m.exec c) (n.exec c')) :
    Ends TooLarge (Twins b) Eq ((onClient idx m).exec d) ((onClient idx n).exec e) := by
  have hc := h.client idx
  unfold Daemon.onClient
  rw [exec_get_bind, exec_get_bind]
  cases hd : d.clients[idx]? with
  | none =>
    rw [hd] at hc
    cases he : e.clients[idx]? with
    | none => exact .ok rfl h
    | some c' =>
      rw [he] at hc
      exact nomatch hc
  | some c =>
    rw [hd] at hc
    cases he : e.clients[idx]? with
    | none =>
      rw [he] at hc
      exact nomatch hc
    | some c' =>
      rw [he] at hc
      cases hc with
      | some hcc =>
        dsimp only
        rw [exec_modify_bind, exec_modify_bind, exec_mapError, exec_mapError, exec_lift, exec_lift]
        have hends := hmn c c' hd hcc
        generalize m.exec c = p at hends ⊢
        generalize n.exec c' = q at hends ⊢
        cases hends with
        | ok _ hnext => exact .ok rfl (h.modifyClient fun _ _ _ _ _ => hnext)
        | error err _ => exact .left ⟨err, rfl⟩
        | left _ => exact .left ⟨_, rfl⟩
        | right _ => exact .right ⟨_, rfl⟩

theorem sendTo {idx : Nat} {q q' : Queued} (h : Twins b d e)
    (hsame : ∀ c, d.clients[idx]? = some c → b ∉ c.leaves → q = q') :
    Ends TooLarge (Twins b) Eq ((sendTo idx q).exec d) ((sendTo idx q').exec e) :=
  h.onClient fun c _ hc hcc => hcc.send (hsame c hc)

theorem onFrame (m : Moment) (id : SessionId) (frame : Frame) :
    Mirrors b Eq (onFrame m id frame) (onFrame m id frame) := by
  refine .bind (.attempt (onKernel (Kernel.Alike.onFrame m id frame))) fun r _ heq => ?_
  subst heq
  split
  · exact .pure rfl
  · exact .pure rfl
  · exact .throw _

-- ---------------------------------------------------------------------------
-- Renderings
-- ---------------------------------------------------------------------------

theorem reset (h : Twins b d e) : d.chip.reset = e.chip.reset := by
  rw [VtEngine.reset, VtEngine.reset, h.chip.1, h.chip.2]

/-- The engine is cleared first, so what it rendered before is of no account. -/
theorem chipFrom (h : Twins b d e) (history : List UInt8) :
    chipFrom d.chip history = chipFrom e.chip history := by
  unfold Daemon.chipFrom
  rw [h.reset]

theorem resyncFromHistory (h : Twins b d e) (history : List UInt8) :
    d.chip.resyncFromHistory history = e.chip.resyncFromHistory history := by
  unfold VtEngine.resyncFromHistory
  rw [h.reset]

theorem chipFrom_cases (chip : VtEngine) :
    (∃ err, ∀ history, Daemon.chipFrom chip history = .error err) ∨
      ∀ history, ∃ fed, Daemon.chipFrom chip history = .ok fed := by
  unfold Daemon.chipFrom
  cases chip.reset with
  | error err => exact .inl ⟨err, fun _ => rfl⟩
  | ok fresh => exact .inr fun _ => ⟨_, rfl⟩

theorem resyncFromHistory_cases (chip : VtEngine) :
    (∃ err, ∀ history, chip.resyncFromHistory history = .error err) ∨
      ∀ history, ∃ bytes fed, chip.resyncFromHistory history = .ok (bytes, fed) := by
  unfold VtEngine.resyncFromHistory
  cases chip.reset with
  | error err => exact .inl ⟨err, fun _ => rfl⟩
  | ok fresh => exact .inr fun _ => ⟨_, _, rfl⟩

theorem ne_of_client (h : Twins b d e) {idx : Nat} {id : SessionId} {c : Client}
    (hc : d.clients[idx]? = some c) (hleaf : c.leaf = some id) (hb : b ∉ c.leaves) : id ≠ b := by
  rintro rfl
  have hcc := h.client idx
  rw [hc] at hcc
  generalize e.clients[idx]? = o at hcc
  cases hcc with
  | some hcc => exact hb (hcc.was hleaf)

theorem emitCheckpoint {idx : Nat} {id : SessionId} (h : Twins b d e)
    (hrole : ∀ c, d.clients[idx]? = some c → c.leaf = some id) :
    Ends TooLarge (Twins b) Eq ((emitCheckpoint idx id).exec d) ((emitCheckpoint idx id).exec e) := by
  have hs := h.session id
  unfold Daemon.emitCheckpoint
  rw [exec_get_bind, exec_get_bind]
  generalize d.session id = o at hs
  generalize e.session id = o' at hs
  cases hs with
  | none => exact .ok rfl h
  | @some s t hst =>
    dsimp only
    rw [exec_get_bind, exec_get_bind, exec_bind, exec_bind]
    obtain ⟨err, hfails⟩ | hfeeds := chipFrom_cases e.chip
    · rw [h.chipFrom, hfails, hfails]
      exact .error _ h
    · obtain ⟨fed, hfed⟩ := hfeeds s.history
      obtain ⟨fed', hfed'⟩ := hfeeds t.history
      have hsize := chipFrom_size hfed
      have hsize' := chipFrom_size hfed'
      rw [h.chipFrom, hfed, hfed']
      have hset : Twins b (d.setChip fed) (e.setChip fed') :=
        h.setChip ⟨hsize.1.trans hsize'.1.symm, hsize.2.trans hsize'.2.symm⟩
      dsimp only [Daemon.setChipOr]
      rw [exec_modify, exec_modify]
      dsimp only
      rw [exec_get_bind, exec_get_bind, exec_modify_bind, exec_modify_bind]
      have hsnap : Twins b ((d.setChip fed).setChip fed.snapshot.2)
          ((e.setChip fed').setChip fed'.snapshot.2) := hset.setChip hset.chip
      refine hsnap.sendTo fun c hc hb => ?_
      have hid : id ≠ b := h.ne_of_client hc (hrole c hc) hb
      obtain rfl := hst.2 hid
      obtain rfl := Except.ok.inj (hfed.symm.trans hfed')
      rfl

theorem sendHistory {idx : Nat} {id : SessionId} (h : Twins b d e)
    (hrole : ∀ c, d.clients[idx]? = some c → c.leaf = some id) :
    Ends TooLarge (Twins b) Eq ((sendHistory idx id).exec d) ((sendHistory idx id).exec e) := by
  have hs := h.session id
  unfold Daemon.sendHistory
  rw [exec_get_bind, exec_get_bind]
  generalize d.session id = o at hs
  generalize e.session id = o' at hs
  cases hs with
  | none => exact .ok rfl h
  | @some s t hst =>
    have hempty : s.history.isEmpty = t.history.isEmpty := Session.Alike.isEmpty_eq hst.1.ring.1
    dsimp only
    rw [hempty]
    split
    · exact .ok rfl h
    · refine h.sendTo fun c hc hb => ?_
      rw [hst.2 (h.ne_of_client hc (hrole c hc) hb)]

-- ---------------------------------------------------------------------------
-- Inbound frames
-- ---------------------------------------------------------------------------

theorem refuse (idx : Nat) (reason : RefuseReason) :
    Mirrors b Eq (refuse idx reason) (refuse idx reason) :=
  fun _ _ h => h.sendTo fun _ _ _ => rfl

theorem attachTo {c d : Client} (h : Client.Alike b c d) (id : SessionId) (observe : Bool)
    (protocol : UInt8) {taken taken' : Nat} (htaken : id ≠ b → taken = taken') :
    Client.Alike b (c.attachTo id observe protocol taken) (d.attachTo id observe protocol taken') where
  reads := h.reads
  writes := h.writes
  decoder := h.decoder
  leaf := rfl
  observe := rfl
  protocol := rfl
  credit := h.credit
  leaves := congrArg (List.insert id) h.leaves
  was hleaf := by
    obtain rfl := Option.some.inj hleaf
    exact List.mem_insert_self
  same hb := by
    rw [h.same fun hmem => hb (List.mem_insert_of_mem hmem),
      htaken fun hid => hb (hid ▸ List.mem_insert_self)]

theorem acceptAttach (m : Moment) (idx : Nat) (id : SessionId) (generation : UInt64)
    (sessionId : Option UInt64) (protocol : UInt8) (observe : Bool) :
    Mirrors b Eq (acceptAttach m idx id generation sessionId protocol observe)
      (acceptAttach m idx id generation sessionId protocol observe) := by
  refine .bind (onFrame m id _) fun _ _ _ => .get_bind fun d e h => ?_
  rw [h.attached]
  refine Couples.ite .rfl (fun _ d e h => ?_) (fun _ => .pure rfl) d e h
  have hset : Twins b (d.modifyClient idx fun c => c.attachTo id observe protocol (d.taken id))
      (e.modifyClient idx fun c => c.attachTo id observe protocol (e.taken id)) :=
    h.modifyClient fun c c' _ _ hcc => attachTo hcc id observe protocol fun hid => h.taken hid
  have hrole : ∀ c, (d.modifyClient idx fun c =>
      c.attachTo id observe protocol (d.taken id)).clients[idx]? = some c → c.leaf = some id := by
    intro c hc
    change (d.clients.modify idx fun c =>
      c.attachTo id observe protocol (d.taken id))[idx]? = some c at hc
    rw [List.getElem?_modify_eq] at hc
    obtain ⟨c, -, rfl⟩ := Option.map_eq_some_iff.mp hc
    rfl
  rw [exec_modify_bind, exec_modify_bind]
  split
  · exact hset.emitCheckpoint hrole
  · split
    · exact hset.sendHistory hrole
    · exact .ok rfl hset

theorem dispatchAttach (m : Moment) (idx : Nat) (generation : UInt64) (sessionId : Option UInt64)
    (protocol : UInt8) (observe : Bool) :
    Mirrors b Eq (dispatchAttach m idx generation sessionId protocol observe)
      (dispatchAttach m idx generation sessionId protocol observe) := by
  refine .get_bind fun d e h => ?_
  rw [h.resolveAttach]
  refine Couples.ite .rfl (fun _ => refuse _ _) (fun _ => ?_) d e h
  cases e.resolveAttach sessionId with
  | none => exact refuse _ _
  | some id =>
    dsimp only
    rw [h.leafOf, h.attached]
    exact .ite .rfl (fun _ => refuse _ _) fun _ => acceptAttach m idx id generation sessionId protocol observe

theorem creditClient {c d : Client} (h : Client.Alike b c d) (frame : Frame) :
    Client.Alike b (creditClient frame c) (Daemon.creditClient frame d) := by
  unfold Daemon.creditClient
  split
  case h_1 n =>
    exact { h with
      credit := congrArg (fun credit => min (credit + n.toNat) u64Max) h.credit
      same := fun hb => congrArg (fun c => c.addCredit n) (h.same hb) }
  case h_2 => exact h

theorem dispatchOwn (m : Moment) (idx : Nat) (id : SessionId) (frame : Frame) :
    Mirrors b Eq (dispatchOwn m idx id frame) (dispatchOwn m idx id frame) := by
  intro d e h
  rw [exec_dispatchOwn, exec_dispatchOwn]
  exact onFrame m id frame _ _ (h.modifyClient fun c c' _ _ hcc => creditClient hcc frame)

theorem dispatchFrame (m : Moment) (idx : Nat) (frame : Frame) :
    Mirrors b Eq (dispatchFrame m idx frame) (dispatchFrame m idx frame) := by
  cases hattach : frame.isAttach with
  | true =>
    cases frame with
    | attach generation sessionId protocol observe =>
      exact dispatchAttach m idx generation sessionId protocol observe
    | data | credit | resize | exit | refused | checkpoint | delta | resyncRequest => cases hattach
  | false =>
    intro d e h
    rw [exec_dispatchFrame hattach, exec_dispatchFrame hattach, h.leafOf, h.observes]
    cases e.leafOf idx with
    | none => exact .ok rfl (h.dropClient idx)
    | some id =>
      exact Couples.ite .rfl (fun _ => .pure rfl) (fun _ => dispatchOwn m idx id frame) d e h

theorem fetchFrames (idx : Nat) : Mirrors b Eq (fetchFrames idx) (fetchFrames idx) := by
  refine .get_bind fun d e h => ?_
  have hc := h.client idx
  generalize d.clients[idx]? = o at hc
  generalize e.clients[idx]? = o' at hc
  cases hc with
  | none => exact .ok rfl h
  | @some c c' hcc =>
    have hread := hcc.read socketBuf
    have hdrop : Mirrors b Eq
        (do modify fun d : Daemon => d.dropClient idx; pure [] : DaemonM (List Frame))
        (do modify fun d : Daemon => d.dropClient idx; pure [] : DaemonM (List Frame)) :=
      .bind (.modify fun _ _ h => h.dropClient idx) fun _ _ _ => .pure rfl
    dsimp only
    generalize c.read socketBuf = r at hread
    generalize c'.read socketBuf = r' at hread
    obtain ⟨read, next⟩ := r
    obtain ⟨read', next'⟩ := r'
    obtain ⟨rfl, hnext⟩ := hread
    have hkeep : ∀ {f g : Client → Client}, Client.Alike b (f next) (g next') →
        Twins b (d.modifyClient idx fun _ => f next) (e.modifyClient idx fun _ => g next') :=
      fun hfg => h.modifyClient fun _ _ _ _ _ => hfg
    cases read with
    | wouldBlock => exact .ok rfl (hkeep (f := id) (g := id) hnext)
    | eof => exact hdrop d e h
    | failed => exact hdrop d e h
    | data bytes =>
      have hpush : next.decoder.push bytes = next'.decoder.push bytes := by
        dsimp only at hnext
        rw [hnext.decoder]
      dsimp only
      rw [hpush]
      cases next'.decoder.push bytes with
      | error _ => exact hdrop d e h
      | ok r =>
        refine .ok rfl (hkeep (f := fun c => { c with decoder := r.2 })
          (g := fun c => { c with decoder := r.2 }) ?_)
        exact { hnext with
          decoder := rfl
          same := fun hb => congrArg (fun c : Client => { c with decoder := r.2 }) (hnext.same hb) }

theorem readClient (clock : Nat → Moment) (idx : Nat) :
    Mirrors b Eq (readClient clock idx) (readClient clock idx) := by
  refine .bind (fetchFrames idx) fun frames _ heq => ?_
  subst heq
  exact .forM_same _ fun (m, frame) => dispatchFrame m idx frame

-- ---------------------------------------------------------------------------
-- Output of the leaves
-- ---------------------------------------------------------------------------

theorem fanoutPtyBytes {id : SessionId} {offset offset' start start' : Nat} {bytes bytes' : List UInt8}
    (hlen : SameLength bytes bytes')
    (hsame : id ≠ b → offset = offset' ∧ start = start' ∧ bytes = bytes') :
    Mirrors b Eq (fanoutPtyBytes id offset start bytes) (fanoutPtyBytes id offset' start' bytes') := by
  refine .get_bind fun d e h => ?_
  have hfanout : Couples (fun _ => True) (Client.Alike b) Eq (Client.fanout id offset start bytes)
      (Client.fanout id offset' start' bytes') := fun c c' hcc => hcc.fanout hlen hsame
  have heach := ends_each hfanout h.clients
  generalize each (Client.fanout id offset start bytes) d.clients = p at heach ⊢
  generalize each (Client.fanout id offset' start' bytes') e.clients = q at heach ⊢
  cases heach with
  | ok _ hl => exact .ok rfl { h with clients := hl }
  | error err _ => exact .left ⟨err.2, rfl⟩
  | @left err _ _ _ => exact .left ⟨err.2, rfl⟩
  | @right err _ _ _ => exact .right ⟨err.2, rfl⟩

theorem noteStalledRead : Session.Mirrors Eq (modify Session.noteStalledRead) :=
  .modify fun _ _ h => { h with }

theorem drainToClients (id : SessionId) : Mirrors b Eq (drainToClients id) (drainToClients id) := by
  refine .get_bind fun d e h => ?_
  rw [h.protocol1WriterCredit]
  refine Couples.ite .rfl (fun _ => ?_) (fun _ => ?_) d e h
  · exact .bind (onSame noteStalledRead rfl) fun _ _ _ => .pure rfl
  · refine .bind (onSame (Session.Alike.drainPtyAtMost _) .none) fun r r' hr => ?_
    obtain ⟨hread, hsame⟩ := hr
    cases hread with
    | none => exact .pure rfl
    | @some bytes bytes' hlen =>
      refine .get_bind fun d e h => ?_
      refine Couples.bind (fanoutPtyBytes hlen fun hid => ?_) (fun _ _ _ => .pure rfl) d e h
      obtain rfl := Option.some.inj (hsame hid)
      rw [bytesDelivered, bytesDelivered, h.session_eq hid, h.taken hid]
      exact ⟨rfl, rfl, rfl⟩

theorem drainToQueue (id : SessionId) : Mirrors b Eq (drainToQueue id) (drainToQueue id) := by
  have hread : Session.Mirrors Eq (do
      if (← get).credit > 0 then Session.onPtyReadable else pure 0 : Op Session Kernel.Error Nat) := by
    refine .get_bind fun s t h => ?_
    rw [h.credit]
    exact Couples.ite .rfl (fun _ => Session.Alike.onPtyReadable) (fun _ => .pure rfl) s t h
  refine .bind (onSame hread rfl) fun n n' hn => ?_
  obtain rfl := hn.1
  exact .pure rfl

theorem drainLoop (turns : Nat) (id : SessionId) : Mirrors b Eq (drainLoop turns id) (drainLoop turns id) := by
  have honce : Mirrors b Eq (drainOnce id) (drainOnce id) := by
    refine .get_bind fun d e h => ?_
    rw [h.hasProtocol2, h.isWorker]
    exact Couples.ite .rfl (fun _ => drainToClients id) (fun _ => drainToQueue id) d e h
  induction turns with
  | zero => exact .pure rfl
  | succ turns ih =>
    refine .bind honce fun more _ heq => ?_
    subst heq
    exact .ite .rfl (fun _ => ih) fun _ => .pure rfl

theorem drainLeaf (id : SessionId) : Mirrors b Eq (drainLeaf id) (drainLeaf id) := by
  refine .get_bind fun d e h => ?_
  have hs := h.session id
  generalize d.session id = o at hs
  generalize e.session id = o' at hs
  cases hs with
  | none => exact .ok rfl h
  | some hst =>
    dsimp only
    rw [hst.1.pty.backlog]
    exact drainLoop _ id d e h

-- ---------------------------------------------------------------------------
-- Flush and resync
-- ---------------------------------------------------------------------------

theorem flushOutbound : Mirrors b Eq flushOutbound flushOutbound := by
  refine .get_bind fun d e h => ?_
  refine Couples.bind (.modify fun d e h => ?_) (fun _ _ _ => ?_) d e h
  · rw [← h.claimed]
    exact h.setKernel (h.kernel.takeOutbound _)
  have hqueued : Couples (fun stop => stop ≠ Client.Stop.write) (Client.Alike b) Eq
      (do Client.serve (queued d (← get).leaf)) (do Client.serve (queued e (← get).leaf)) := by
    refine .get_bind fun c c' hcc => hcc.serve fun hb => ?_
    rw [← hcc.leaf]
    unfold queued
    cases hleaf : c.leaf with
    | none => rfl
    | some id =>
      have hid : id ≠ b := fun hid => hb (hcc.was (hid ▸ hleaf))
      dsimp only [Option.bind_some]
      rw [h.session_eq hid]
  have heach := ends_each hqueued h.clients
  generalize each (do Client.serve (queued d (← get).leaf)) d.clients = p at heach ⊢
  generalize each (do Client.serve (queued e (← get).leaf)) e.clients = q at heach ⊢
  cases heach with
  | ok _ hl => exact .bind (.modify fun _ _ h => { h with clients := hl }) fun _ _ _ => .pure rfl
  | error stop hl =>
    refine .bind (.modify fun _ _ h => { h with clients := hl }) fun _ _ _ => ?_
    obtain ⟨idx, _ | _⟩ := stop
    · exact .throw _
    · exact .modify fun _ _ h => h.dropClient idx
  | @left stop _ _ hstop =>
    obtain ⟨idx, a | _⟩ := stop
    · exact fun _ _ _ => .left ⟨a, rfl⟩
    · exact absurd rfl hstop
  | @right stop _ _ hstop =>
    obtain ⟨idx, a | _⟩ := stop
    · exact fun _ _ _ => .right ⟨a, rfl⟩
    · exact absurd rfl hstop

/-- The repaint of a leaf does not depend on what was repainted before it. -/
theorem resyncLeaf (id : SessionId) : Mirrors b Eq (resyncLeaf id) (resyncLeaf id) := by
  refine .bind (onSame (Q := Option.Rel SameLength) ?_ .none) fun r r' hr => ?_
  · refine .get_bind fun s t h => ?_
    have hnext : s.takeResyncHistory.2.Alike t.takeResyncHistory.2 := { h with resyncPending := rfl }
    have hhistory : Option.Rel SameLength s.takeResyncHistory.1 t.takeResyncHistory.1 := by
      unfold Session.takeResyncHistory
      dsimp only
      rw [h.resyncPending]
      split
      · exact .some h.ring.1
      · exact .none
    exact .ok hhistory hnext
  obtain ⟨hrel, hsame⟩ := hr
  cases hrel with
  | none => exact .pure rfl
  | @some history history' _ =>
    refine .get_bind fun d e h => ?_
    rw [h.hasProtocol2]
    refine Couples.ite .rfl (fun _ => .pure rfl) (fun _ => ?_) d e h
    rw [h.resyncFromHistory]
    obtain ⟨err, hfails⟩ | hrenders := resyncFromHistory_cases e.chip
    · rw [hfails, hfails]
      exact .throw _
    · obtain ⟨bytes, fed, hfed⟩ := hrenders history
      obtain ⟨bytes', fed', hfed'⟩ := hrenders history'
      have hsize := resyncFromHistory_size hfed
      have hsize' := resyncFromHistory_size hfed'
      rw [hfed, hfed']
      dsimp only
      refine .bind (.modify fun _ _ h => h.setChip
        ⟨hsize.1.trans hsize'.1.symm, hsize.2.trans hsize'.2.symm⟩) fun _ _ _ => ?_
      rw [if_neg (by simp [VtEngine.resyncFromHistory_ne_nil hfed]),
        if_neg (by simp [VtEngine.resyncFromHistory_ne_nil hfed'])]
      refine onLeaf (.modify fun s t hst => ⟨{ hst.1 with }, fun hid => ?_⟩) rfl
      obtain rfl := Option.some.inj (hsame hid)
      obtain ⟨rfl, -⟩ := Prod.mk.inj (Except.ok.inj (hfed.symm.trans hfed'))
      rw [hst.2 hid, h.taken hid]

end Twins

-- ---------------------------------------------------------------------------
-- Polls
-- ---------------------------------------------------------------------------

/-- Scripts for the child of leaf `id`: the same, but for the bytes that the child
of `b` writes. -/
def SameScript (b id : SessionId) (turns turns' : List Turn) : Prop :=
  List.Forall₂ Turn.Alike turns turns' ∧ (id ≠ b → turns = turns')

def tabLeaf (size : Winsize) (turns : List Turn) : Session := .spawn (.spawn size turns) false size

theorem alike_tabLeaf (size : Winsize) {turns turns' : List Turn}
    (h : List.Forall₂ Turn.Alike turns turns') : (tabLeaf size turns).Alike (tabLeaf size turns') :=
  ⟨⟨h, rfl, rfl, rfl, rfl⟩, ⟨rfl, rfl⟩, rfl, rfl, rfl, rfl, rfl, rfl, rfl, rfl, rfl⟩

/-- What NEW_TABs come to on a kernel. After a spawn that fails there are no others. -/
inductive SameTabs (b : SessionId) (size : Winsize) :
    Kernel → List (Except Kernel.Error (List Turn)) → List (Except Kernel.Error (List Turn)) → Prop
  | nil {k : Kernel} : SameTabs b size k [] []
  | failed {k : Kernel} {tabs tabs' : List (Except Kernel.Error (List Turn))} (e : Kernel.Error) :
      SameTabs b size k (.error e :: tabs) (.error e :: tabs')
  | spawned {k : Kernel} {turns turns' : List Turn} {tabs tabs' : List (Except Kernel.Error (List Turn))} :
      SameScript b (k.spawnLeaf (tabLeaf size turns)).1 turns turns' →
      SameTabs b size (k.spawnLeaf (tabLeaf size turns)).2 tabs tabs' →
      SameTabs b size k (.ok turns :: tabs) (.ok turns' :: tabs')

/-- The same poll of two daemons, but for the bytes that the child of `b` writes.
No write to a socket fails. -/
structure SamePoll (b : SessionId) (d : Daemon) (p p' : Poll) : Prop where
  rest : p' = { p with tabs := p'.tabs }
  tabs : SameTabs b d.size d.kernel p.tabs p'.tabs
  writes : ∀ stream, p.accept = .ok (some stream) → Write.failed ∉ stream.writes

namespace Twins

variable {b : SessionId} {d e : Daemon} {k : Kernel} {size : Winsize}

/-- Nothing has been spawned since the kernel was `k`. -/
def At (k : Kernel) (size : Winsize) (d : Daemon) : Prop := SameIds k d.kernel ∧ d.size = size

theorem reapAll (p : Poll) : Mirrors b Eq (reapAll p) (reapAll p) := by
  refine .get_bind fun d e h => ?_
  rw [← h.kernel.ids]
  exact Couples.forM_same _ (fun id => onKernel (Kernel.Alike.reap _ id)) d e h

theorem at_reapAll (p : Poll) : Op.Keeps (At k size) (Daemon.reapAll p) := by
  refine .bind .get fun d => .forM (fun id => .mapError _ (.on fun d h => ?_)) _
  exact ⟨SameIds.reap k _ id _ h.1, h.2⟩

theorem acceptOne {accept : Except Unit (Option Stream)}
    (hwrites : ∀ stream, accept = .ok (some stream) → Write.failed ∉ stream.writes) :
    Mirrors b Eq (acceptOne accept) (acceptOne accept) := by
  unfold Daemon.acceptOne
  split
  · exact .throw _
  · exact .pure rfl
  · exact .modify fun _ _ h => h.acceptClient (hwrites _ rfl)

theorem at_acceptOne (accept : Except Unit (Option Stream)) :
    Op.Keeps (At k size) (Daemon.acceptOne accept) := by
  unfold Daemon.acceptOne
  split
  · exact .throw _
  · exact .pure _
  · exact .modify fun _ h => h

theorem spawnTabs {tabs tabs' : List (Except Kernel.Error (List Turn))}
    (htabs : SameTabs b size k tabs tabs') (h : Twins b d e) (hat : At k size d) :
    Ends TooLarge (Twins b) Eq ((tabs.forM spawnTabLeaf).exec d) ((tabs'.forM spawnTabLeaf).exec e) := by
  induction htabs generalizing d e with
  | nil => exact .ok rfl h
  | failed err => exact .error _ h
  | @spawned k turns turns' tabs tabs' hscript _ ih =>
    obtain ⟨hk, rfl⟩ := hat
    have hid := hk.spawnLeaf (tabLeaf d.size turns) (tabLeaf d.size turns)
    have hleaf : SameLeaf b (d.kernel.spawnLeaf (tabLeaf d.size turns)).1 (tabLeaf d.size turns)
        (tabLeaf d.size turns') := by
      rw [hid.1]
      exact ⟨alike_tabLeaf d.size hscript.1, fun hne => by rw [hscript.2 hne]⟩
    have hnext : Twins b (d.setKernel (d.kernel.spawnLeaf (tabLeaf d.size turns)).2)
        (e.setKernel (e.kernel.spawnLeaf (tabLeaf e.size turns')).2) := by
      rw [← h.size]
      exact h.setKernel (h.kernel.spawnLeaf hleaf)
    exact ih hnext ⟨hid.2, rfl⟩

theorem pollIo {p p' : Poll} (hp : SamePoll b d p p') {d' e' : Daemon} (h : Twins b d' e')
    (hat : At d.kernel d.size d') :
    Ends TooLarge (Twins b) Eq ((pollIo p).exec d') ((pollIo p').exec e') := by
  obtain ⟨hrest, htabs, hwrites⟩ := hp
  generalize p'.tabs = tabs' at hrest htabs
  subst hrest
  have hreadable : (fun id => Daemon.childAlive d' id && p.readable id) =
      fun id => Daemon.childAlive e' id && p.readable id := by
    funext id
    rw [h.childAlive]
  unfold Daemon.pollIo
  rw [exec_get_bind, exec_get_bind, hreadable, ← h.kernel.ids, ← h.clients.length_eq]
  dsimp only
  split
  · exact .error _ h
  refine Ends.bind ((acceptOne hwrites).keeping (at_acceptOne _) d' e' ⟨h, hat⟩) (fun _ _ h => h.1)
    fun _ _ d₁ e₁ _ h₁ => ?_
  split
  · exact .error _ h₁.1
  refine (spawnTabs htabs h₁.1 h₁.2).bind (fun _ _ h => h) fun _ _ d₂ e₂ _ h₂ => ?_
  refine Couples.bind (.forM_same _ fun idx => ?_) (fun _ _ _ => .forM_same _ drainLeaf) d₂ e₂ h₂
  exact .ite .rfl (fun _ => readClient _ idx) fun _ => .pure rfl

theorem maybeResync (p : Poll) : Mirrors b Eq (maybeResync p) (maybeResync p) := by
  refine .get_bind fun d e h => ?_
  rw [← h.kernel.ids]
  exact Couples.forM_same _ resyncLeaf d e h

/-- Whatever one poll brings, the two daemons end a step alike. -/
theorem step {p p' : Poll} (hp : SamePoll b d p p') (h : Twins b d e) :
    Ends TooLarge (Twins b) Eq ((step p).exec d) ((step p').exec e) := by
  have hreap : Daemon.reapAll p' = Daemon.reapAll p := by rw [hp.rest]; rfl
  have hresync : Daemon.maybeResync p' = Daemon.maybeResync p := by rw [hp.rest]; rfl
  unfold Daemon.step
  rw [hreap, hresync]
  refine Ends.bind ((reapAll p).keeping (at_reapAll p) d e ⟨h, .refl _, rfl⟩) (fun _ _ h => h.1)
    fun _ _ d₁ e₁ _ h₁ => ?_
  refine (pollIo hp h₁.1 h₁.2).bind (fun _ _ h => h) fun _ _ d₂ e₂ _ h₂ => ?_
  exact Couples.bind flushOutbound (fun _ _ _ => maybeResync p) d₂ e₂ h₂

end Twins

-- ---------------------------------------------------------------------------
-- Runs
-- ---------------------------------------------------------------------------

/-- Two runs of a daemon, step by step, in which only the bytes that the child of
leaf `b` writes may differ, and no frame is too large to be sent. -/
inductive TwinRuns (b : SessionId) : Daemon → Daemon → Prop
  | bind {turns turns' : List Turn} {size : Winsize} {isWorker : Bool} {d e : Daemon} :
      Daemon.bind (.spawn size turns) size isWorker = .ok d →
      Daemon.bind (.spawn size turns') size isWorker = .ok e →
      SameScript b d.defaultId turns turns' → TwinRuns b d e
  | step {d e : Daemon} {p p' : Poll} : TwinRuns b d e → SamePoll b d p p' →
      (∀ err, ((Daemon.step p).exec d).1 ≠ .error (.attach err)) →
      (∀ err, ((Daemon.step p').exec e).1 ≠ .error (.attach err)) →
      TwinRuns b ((Daemon.step p).exec d).2 ((Daemon.step p').exec e).2

theorem twins_bind {b : SessionId} {turns turns' : List Turn} {size : Winsize} {isWorker : Bool}
    {d e : Daemon} (hd : Daemon.bind (.spawn size turns) size isWorker = .ok d)
    (he : Daemon.bind (.spawn size turns') size isWorker = .ok e)
    (hscript : SameScript b d.defaultId turns turns') : Twins b d e := by
  unfold Daemon.bind at hd he
  dsimp only at hd he
  cases hchip : VtEngine.new size.cols size.rows with
  | error err =>
    rw [hchip] at hd
    cases hd
  | ok chip =>
    rw [hchip] at hd he
    obtain rfl := Except.ok.inj hd
    obtain rfl := Except.ok.inj he
    have hnew : Kernel.Alike b .new .new := ⟨rfl, rfl, fun _ => .none⟩
    have hleaf : SameLeaf b (Kernel.new.spawnLeaf (tabLeaf size turns)).1 (tabLeaf size turns)
        (tabLeaf size turns') :=
      ⟨alike_tabLeaf size hscript.1, fun hne => by rw [hscript.2 hne]⟩
    exact ⟨hnew.spawnLeaf hleaf,
      ((SameIds.refl .new).spawnLeaf (tabLeaf size turns') (tabLeaf size turns)).1, .nil,
      ⟨rfl, rfl⟩, rfl, rfl⟩

theorem TwinRuns.twins {b : SessionId} {d e : Daemon} (h : TwinRuns b d e) : Twins b d e := by
  induction h with
  | bind hd he hscript => exact twins_bind hd he hscript
  | @step d e p p' _ hp hd he ih =>
    have hends := ih.step hp
    generalize (Daemon.step p).exec d = r at hends hd
    generalize (Daemon.step p').exec e = r' at hends he
    cases hends with
    | ok _ h => exact h
    | error _ h => exact h
    | left hlarge =>
      obtain ⟨err, rfl⟩ := hlarge
      exact absurd rfl (hd err)
    | right hlarge =>
      obtain ⟨err, rfl⟩ := hlarge
      exact absurd rfl (he err)

/-- What a connection that was never on `b` is owed and was sent does not depend on
what the child of `b` writes. -/
theorem leaves_apart {b : SessionId} {d e : Daemon} (h : TwinRuns b d e) :
    d.clients.length = e.clients.length ∧
      ∀ (idx : Nat) (c c' : Client), d.clients[idx]? = some c → e.clients[idx]? = some c' →
        c.leaves = c'.leaves ∧
          (b ∉ c.leaves → c.outbox = c'.outbox ∧ c.stream.sent = c'.stream.sent) := by
  refine ⟨h.twins.clients.length_eq, fun idx c c' hc hc' => ?_⟩
  have hcc := h.twins.client idx
  rw [hc, hc'] at hcc
  cases hcc with
  | some hcc =>
    refine ⟨hcc.leaves, fun hb => ?_⟩
    rw [hcc.same hb]
    exact ⟨rfl, rfl⟩

theorem ne_attach_of_isOk {r : Except Error Unit} (h : r.isOk = true) (err : Attach.Error) :
    r ≠ .error (.attach err) := by
  rintro rfl
  cases h

/-- A client of a tab, while the child of the first leaf writes one letter or another. -/
theorem leaves_apart_tab :
    let attach : Poll := { Poll.quiet with
      accept := .ok (some (.of [.attach 1 (some 2) protocolVersion false, .credit 100] [] [.accept 1000]))
      tabs := [.ok [.quiet, ⟨[0x78], none, none, none⟩]]
      readable := fun _ => true }
    let read : Poll := { Poll.quiet with ready := fun idx => idx = 0, readable := fun _ => true }
    let start (letter : UInt8) : Except Error Daemon :=
      Daemon.bind (.spawn ⟨2, 1, 0, 0⟩ [⟨[letter], none, none, none⟩]) ⟨2, 1, 0, 0⟩ true
    let stop (d : Daemon) : Daemon := ((step read).exec ((step attach).exec d).2).2
    let d := stop ((start 0x61).toOption.get rfl)
    let e := stop ((start 0x62).toOption.get rfl)
    (d.session ⟨1⟩).map Session.history ≠ (e.session ⟨1⟩).map Session.history ∧
      ∃ c c', d.clients[0]? = some c ∧ e.clients[0]? = some c' ∧ c.stream.sent = [1, 1, 0, 0, 0, 0x78] ∧
        c.outbox = c'.outbox ∧ c.stream.sent = c'.stream.sent := by
  intro attach read start stop d e
  have hstart : TwinRuns ⟨1⟩ ((start 0x61).toOption.get rfl) ((start 0x62).toOption.get rfl) :=
    .bind (show start 0x61 = .ok _ from rfl) (show start 0x62 = .ok _ from rfl)
      ⟨.cons ⟨rfl, rfl, rfl, rfl⟩ .nil, fun hne => absurd rfl hne⟩
  have hattach : TwinRuns ⟨1⟩ ((step attach).exec ((start 0x61).toOption.get rfl)).2
      ((step attach).exec ((start 0x62).toOption.get rfl)).2 := by
    refine .step hstart ⟨rfl, ?_, ?_⟩ (ne_attach_of_isOk (by decide))
      (ne_attach_of_isOk (by decide))
    · exact .spawned ⟨List.forall₂_same.mpr fun _ _ => ⟨rfl, rfl, rfl, rfl⟩, fun _ => rfl⟩ .nil
    · rintro _ ⟨⟩
      decide
  have hread : TwinRuns ⟨1⟩ d e :=
    .step hattach ⟨rfl, .nil, nofun⟩ (ne_attach_of_isOk (by decide +kernel))
      (ne_attach_of_isOk (by decide +kernel))
  refine ⟨by decide +kernel, ?_⟩
  have hsent : (d.clients[0]?.any fun c => c.leaves = [⟨2⟩] && c.stream.sent = [1, 1, 0, 0, 0, 0x78]) = true :=
    by decide +kernel
  obtain ⟨hlength, happart⟩ := leaves_apart hread
  obtain ⟨c, hc, hsent⟩ := (Option.any_eq_true _ _).mp hsent
  obtain ⟨hleaves, hsent⟩ := Bool.and_eq_true_iff.mp hsent
  have hlt : 0 < e.clients.length := by
    rw [← hlength]
    exact (List.getElem?_eq_some_iff.mp hc).1
  obtain ⟨c', hc'⟩ : ∃ c', e.clients[0]? = some c' := ⟨_, List.getElem?_eq_getElem hlt⟩
  have hnever : (⟨1⟩ : SessionId) ∉ c.leaves := by
    rw [of_decide_eq_true hleaves]
    decide
  exact ⟨c, c', hc, hc', of_decide_eq_true hsent, (happart 0 c c' hc hc').2 hnever⟩

end Rill.Daemon
