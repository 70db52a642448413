import Rill.Daemon.Claims

/-!
# A client and its leaf

What one act does to a session (`Evolves`), and what it does to a client together
with the session of the leaf it is on (`Moved`). What is said of every session or
of every client on its leaf is proved one such move at a time.
-/

namespace Rill.Daemon

open Lib Attach Kernel Function Relation

-- ---------------------------------------------------------------------------
-- Sessions
-- ---------------------------------------------------------------------------

/-- What an act does to the session of the leaf `id`. -/
inductive Evolves (d : Daemon) (id : SessionId) : Act → Session → Session → Prop
  | steady {a : Act} {s t : Session} (hsteady : s.Steady t) : Evolves d id a s t
  | attach {m : Moment} {idx : Nat} {generation : UInt64} {sessionId : Option UInt64}
    {protocol : UInt8} {observe : Bool} {s : Session}
    (hprotocol : Frame.protocolSupported protocol) (hid : d.resolveAttach sessionId = some id)
    (hmine : d.attached id → ¬ observe → d.leafOf idx = some id) :
    Evolves d id (.frame m idx (.attach generation sessionId protocol observe)) s
      (s.attach m generation observe)
  | release {a : Act} {s : Session} (observe : Bool) : Evolves d id a s (releaseRole observe s)
  | exit {m : Moment} {s t : Session} {status : Int32} (hsteady : s.Steady t)
    (halive : s.childExit = none) (hwait : Pty.tryWait.exec s.pty = (.ok (some status), t.pty))
    (hreaped : t.pty.reaped = some status)
    (hturn : s.pty.reaped = none → t.pty = { s.pty.turn.2 with reaped := some status } ∧
      s.pty.turn.2.exited = some status) :
    Evolves d id (.reap m id) s (t.observeExit status)
  | fanout {s : Session} {p : Pty} {got : List UInt8} (hpath : hasProtocol2 d id || d.isWorker)
    (hgot : got ≠ []) (hgives : s.pty.Gives p got) :
    Evolves d id (.drain id) s (({ s with pty := p } : Session).deliver got)
  | queue {s : Session} {p : Pty} {got : List UInt8}
    (hpath : (hasProtocol2 d id || d.isWorker) = false) (hgot : got ≠ [])
    (hcredit : got.length ≤ s.credit) (hgives : s.pty.Gives p got) :
    Evolves d id (.drain id) s
      (({ s with pty := p } : Session).deliverQueued s.pty.taken.length got)
  | flush {s : Session} {qs : List Queued} (hqs : qs.Sublist s.outbound) (x : Option Client) :
    Evolves d id .flush s ((x.elim (fun s => s) fun x => x.leave id) { s with outbound := qs })
  | skipResync {s : Session} (hskip : s.resyncPending = false ∨ hasProtocol2 d id) :
    Evolves d id (.resync id) s s.takeResyncHistory.2
  | repaint {s : Session} {bytes : List UInt8} (hpending : s.resyncPending)
    (hprotocol : hasProtocol2 d id = false)
    (hbytes : ∃ chip, d.chip.resyncFromHistory s.history = .ok (bytes, chip)) :
    Evolves d id (.resync id) s
      (s.takeResyncHistory.2.enqueueOutbound ⟨.data bytes, .repaint s.pty.taken.length⟩)

theorem update_cases {S : Sessions} {i id : SessionId} {t s' : Session}
    (h : update S i (some t) id = some s') : (id = i ∧ t = s') ∨ (id ≠ i ∧ S id = some s') := by
  by_cases hid : id = i
  · subst hid
    rw [update_self] at h
    exact .inl ⟨rfl, Option.some.inj h⟩
  · rw [update_of_ne hid] at h
    exact .inr ⟨hid, h⟩

theorem flushed_some {d : Daemon} {id : SessionId} {s' : Session} (h : flushed d id = some s') :
    ∃ s, d.session id = some s ∧ s' = { s with
      outbound :=
        if id ∈ d.clients.filterMap Client.leaf then []
        else s.outbound.filter fun q => !q.frame.isData } := by
  cases hs : d.session id with
  | none =>
    have hs' : d.kernel.session id = none := hs
    rw [flushed, Kernel.session_takeOutbound, hs'] at h
    cases h
  | some s =>
    rw [flushed_eq hs] at h
    exact ⟨s, rfl, (Option.some.inj h).symm⟩

theorem flushed_sublist (d : Daemon) (id : SessionId) (s : Session) :
    (if id ∈ d.clients.filterMap Client.leaf then []
      else s.outbound.filter fun q => !q.frame.isData).Sublist s.outbound := by
  split
  case isTrue => exact List.nil_sublist _
  case isFalse => exact List.filter_sublist

theorem Evolves.leave {d : Daemon} (a : Act) (id : SessionId) (c : Client) (s : Session) :
    Evolves d id a s (c.leave id s) := by
  unfold Client.leave
  split
  case isTrue => exact .release c.observe
  case isFalse => exact .steady (.refl s)

/-- Every session there is after an act is new, or evolved from one that was there. -/
theorem Effect.evolves {d : Daemon} {a : Act} {S : Sessions} {C : List Client}
    (h : Effect d a S C) {id : SessionId} {s' : Session} (hs' : S id = some s') :
    (∃ s, d.session id = some s ∧ Evolves d id a s s') ∨
      (d.session id = none ∧ ∃ turns, s' = .spawn (.spawn d.size turns) false d.size) := by
  have hsame : ∀ {a}, d.session id = some s' → ∃ s, d.session id = some s ∧ Evolves d id a s s' :=
    fun h => ⟨s', h, .steady (.refl s')⟩
  cases h with
  | idle | accept | fetch | drop | refuse => exact .inl (hsame hs')
  | spawn turns hid =>
    rcases update_cases hs' with ⟨rfl, rfl⟩ | ⟨-, hs⟩
    · exact .inr ⟨hid, turns, rfl⟩
    · exact .inl (hsame hs)
  | hangup hc =>
    obtain ⟨s, hs, rfl⟩ := Option.map_eq_some_iff.mp hs'
    exact .inl ⟨s, hs, .leave _ _ _ s⟩
  | attach hprotocol hid hs hmine =>
    rcases update_cases hs' with ⟨rfl, rfl⟩ | ⟨-, hs⟩
    · refine .inl ⟨_, hs, .attach hprotocol hid fun hheld => hmine ?_⟩
      exact (Kernel.attached_eq hs).symm.trans hheld
    · exact .inl (hsame hs)
  | own _ _ _ _ hs hsteady | reap hs hsteady | stall hs hsteady =>
    rcases update_cases hs' with ⟨rfl, rfl⟩ | ⟨-, hs⟩
    · exact .inl ⟨_, hs, .steady hsteady⟩
    · exact .inl (hsame hs)
  | exit hs hsteady halive hwait hreaped hturn =>
    rcases update_cases hs' with ⟨rfl, rfl⟩ | ⟨-, hs⟩
    · exact .inl ⟨_, hs, .exit hsteady halive hwait hreaped hturn⟩
    · exact .inl (hsame hs)
  | fanout hs hpath hgot hgives =>
    rcases update_cases hs' with ⟨rfl, rfl⟩ | ⟨-, hs⟩
    · exact .inl ⟨_, hs, .fanout hpath hgot hgives⟩
    · exact .inl (hsame hs)
  | queue hs hpath hgot hcredit hgives =>
    rcases update_cases hs' with ⟨rfl, rfl⟩ | ⟨-, hs⟩
    · exact .inl ⟨_, hs, .queue hpath hgot hcredit hgives⟩
    · exact .inl (hsame hs)
  | flush =>
    obtain ⟨s, hs, rfl⟩ := flushed_some hs'
    exact .inl ⟨s, hs, .flush (flushed_sublist d id s) none⟩
  | @flushDrop _ _ _ c =>
    obtain ⟨t, ht, rfl⟩ := Option.map_eq_some_iff.mp hs'
    obtain ⟨s, hs, rfl⟩ := flushed_some ht
    exact .inl ⟨s, hs, .flush (flushed_sublist d id s) (some c)⟩
  | skipResync hs hskip =>
    rcases update_cases hs' with ⟨rfl, rfl⟩ | ⟨-, hs⟩
    · exact .inl ⟨_, hs, .skipResync hskip⟩
    · exact .inl (hsame hs)
  | repaint hs hpending hprotocol hbytes =>
    rcases update_cases hs' with ⟨rfl, rfl⟩ | ⟨-, hs⟩
    · exact .inl ⟨_, hs, .repaint hpending hprotocol hbytes⟩
    · exact .inl (hsame hs)

/-- What new sessions have, and what every act keeps, all sessions have. -/
theorem sessions_runs {G : Daemon → Act → Prop} {K : SessionId → Session → Prop} {d₀ d : Daemon}
    (h₀ : ∀ id s, d₀.session id = some s → K id s)
    (hspawn : ∀ id size turns, K id (.spawn (.spawn size turns) false size))
    (hstep : ∀ d a id s s', Runs Act.Takes G d₀ d → G d a → K id s → Evolves d id a s s' → K id s')
    (hrun : Runs Act.Takes G d₀ d) : ∀ id s, d.session id = some s → K id s := by
  induction hrun with
  | refl => exact h₀
  | tail hrun hact ih =>
    obtain ⟨a, hG, htakes⟩ := hact
    intro id s' hs'
    rcases htakes.effect.1.evolves hs' with ⟨s, hs, hevolves⟩ | ⟨-, turns, rfl⟩
    · exact hstep _ a id s s' hrun hG (ih id s hs) hevolves
    · exact hspawn id _ turns

theorem bind_sessions {K : SessionId → Session → Prop} {turns : List Turn} {size : Winsize}
    {isWorker : Bool} {d₀ : Daemon} (hbind : Daemon.bind (.spawn size turns) size isWorker = .ok d₀)
    (hspawn : ∀ id size turns, K id (.spawn (.spawn size turns) false size)) :
    ∀ id s, d₀.session id = some s → K id s := by
  intro id s hs
  rw [(bind_ok hbind).2.2] at hs
  rcases update_cases hs with ⟨rfl, rfl⟩ | ⟨-, hnone⟩
  · exact hspawn _ _ _
  · cases hnone

theorem isWorker_runs {G : Daemon → Act → Prop} {d₀ d : Daemon} (hrun : Runs Act.Takes G d₀ d) :
    d.isWorker = d₀.isWorker :=
  hrun.invariant (I := fun d => d.isWorker = d₀.isWorker)
    (fun _ _ _ h _ htakes => htakes.effect.2.isWorker.trans h) rfl

-- ---------------------------------------------------------------------------
-- Clients
-- ---------------------------------------------------------------------------

/-- What an act makes of a client that it leaves there. -/
inductive Becomes (d : Daemon) : Act → Client → Client → Prop
  | stays {a : Act} {c c' : Client} {qs : List Queued} (hsent : c.Sent c' qs)
    (hqs : ∀ q ∈ qs, ∃ reason, q = ⟨.refused reason, .control⟩) : Becomes d a c c'
  | credits {m : Moment} {idx : Nat} {f : Frame} {c : Client} :
    Becomes d (.frame m idx f) c (creditClient f c)
  | attaches {m : Moment} {idx : Nat} {generation : UInt64} {sessionId : Option UInt64}
    {protocol : UInt8} {observe : Bool} {id : SessionId} {s : Session} {c c' : Client}
    {qs : List Queued} (hs : d.session id = some s) (hshown : Shown s observe protocol qs)
    (hsent : (c.attachTo id observe protocol s.pty.taken.length).Sent c' qs) :
    Becomes d (.frame m idx (.attach generation sessionId protocol observe)) c c'
  | spends {id : SessionId} {s : Session} {p : Pty} {got : List UInt8} {c c' : Client}
    (h : c.leaf = some id) (hs : d.session id = some s)
    (hpath : hasProtocol2 d id || d.isWorker) (hgives : s.pty.Gives p got)
    (hcredit : got.length ≤ c.credit)
    (hsent : (c.spend got.length).Sent c'
      [⟨c.liveFrame (min (s.bytesDelivered + got.length) u64Max) got, .live s.pty.taken.length⟩]) :
    Becomes d (.drain id) c c'
  | served {c c' : Client} (hsent : c.Sent c' (c.due (queued d c.leaf))) : Becomes d .flush c c'

theorem Becomes.refl {d : Daemon} {a : Act} (c : Client) : Becomes d a c c :=
  .stays (.refl c) fun _ hq => absurd hq List.not_mem_nil

/-- Every client there is after an act is new, or was there and became what it is. -/
theorem Effect.becomes {d : Daemon} {a : Act} {S : Sessions} {C : List Client}
    (h : Effect d a S C) {c' : Client} (hc' : c' ∈ C) :
    (∃ stream, c' = .new stream) ∨ ∃ c ∈ d.clients, Becomes d a c c' := by
  have hsame : ∀ {a}, c' ∈ d.clients →
      (∃ stream, c' = .new stream) ∨ ∃ c ∈ d.clients, Becomes d a c c' :=
    fun hmem => .inr ⟨c', hmem, .refl c'⟩
  cases h with
  | idle | spawn | reap | exit | stall | queue | skipResync | repaint => exact hsame hc'
  | accept stream =>
    rcases List.mem_append.mp hc' with hmem | hnew
    · exact hsame hmem
    · exact .inl ⟨stream, List.mem_singleton.mp hnew⟩
  | fetch hc hsent =>
    rcases mem_set_cases hc' with rfl | ⟨j, -, hj⟩
    · exact .inr ⟨_, List.mem_of_getElem? hc, .stays hsent fun _ hq => absurd hq List.not_mem_nil⟩
    · exact hsame (List.mem_of_getElem? hj)
  | hangup | drop => exact hsame (List.mem_of_mem_eraseIdx hc')
  | @refuse m idx _ _ _ _ reason g hsent =>
    rcases mem_modify_cases hc' with ⟨c, hc, rfl⟩ | ⟨j, -, hj⟩
    · refine .inr ⟨c, List.mem_of_getElem? hc, .stays (hsent c) fun q hq => ?_⟩
      exact ⟨reason, List.mem_singleton.mp hq⟩
    · exact hsame (List.mem_of_getElem? hj)
  | attach _ _ hs _ hshown hsent =>
    rcases mem_modify_cases hc' with ⟨c, hc, rfl⟩ | ⟨j, -, hj⟩
    · exact .inr ⟨c, List.mem_of_getElem? hc, .attaches hs hshown (hsent c)⟩
    · exact hsame (List.mem_of_getElem? hj)
  | own _ _ hc =>
    rcases mem_set_cases hc' with rfl | ⟨j, -, hj⟩
    · exact .inr ⟨_, List.mem_of_getElem? hc, .credits⟩
    · exact hsame (List.mem_of_getElem? hj)
  | @fanout id s p got g hs hpath hgot hgives _ hother hshort hsent =>
    obtain ⟨c, hc, rfl⟩ := List.mem_map.mp hc'
    by_cases hleaf : c.leaf = some id
    · by_cases hle : got.length ≤ c.credit
      · exact .inr ⟨c, hc, .spends hleaf hs hpath hgives hle (hsent c hc hleaf hle)⟩
      · rw [hshort c (Nat.lt_of_not_le hle)]
        exact .inr ⟨c, hc, .refl c⟩
    · rw [hother c hleaf]
      exact .inr ⟨c, hc, .refl c⟩
  | flush hsent =>
    obtain ⟨c, hc, rfl⟩ := List.mem_map.mp hc'
    exact .inr ⟨c, hc, .served (hsent c hc)⟩
  | flushDrop hclients _ hsent =>
    rcases List.mem_append.mp hc' with hfirst | hlast
    · obtain ⟨c, hc, rfl⟩ := List.mem_map.mp hfirst
      exact .inr ⟨c, by simp [hclients, hc], .served (hsent c hc)⟩
    · exact hsame (by simp [hclients, hlast])

/-- What new clients have, and what every act keeps, all clients have. -/
theorem clients_runs {G : Daemon → Act → Prop} {K : Client → Prop} {d₀ d : Daemon}
    (h₀ : d₀.clients = []) (hnew : ∀ stream, K (.new stream))
    (hstep : ∀ d a c c', Runs Act.Takes G d₀ d → G d a → c ∈ d.clients → K c → Becomes d a c c' → K c')
    (hrun : Runs Act.Takes G d₀ d) : ∀ c ∈ d.clients, K c := by
  induction hrun with
  | refl =>
    intro c hc
    rw [h₀] at hc
    cases hc
  | tail hrun hact ih =>
    obtain ⟨a, hG, htakes⟩ := hact
    intro c' hc'
    rcases htakes.effect.1.becomes hc' with ⟨stream, rfl⟩ | ⟨c, hc, hbecomes⟩
    · exact hnew stream
    · exact hstep _ a c c' hrun hG hc (ih c hc) hbecomes

-- ---------------------------------------------------------------------------
-- Clients on leaves
-- ---------------------------------------------------------------------------

/-- `c` is a client on the leaf `id`, whose session is `s`. -/
structure On (d : Daemon) (id : SessionId) (c : Client) (s : Session) : Prop where
  mem : c ∈ d.clients
  leaf : c.leaf = some id
  session : d.session id = some s

def Linked (d : Daemon) : Prop :=
  ∀ c ∈ d.clients, ∀ id, c.leaf = some id → ∃ s, d.session id = some s

/-- Two connections, though they may look the same. -/
def Distinct (d : Daemon) (c c' : Client) : Prop :=
  ∃ i j : Nat, i ≠ j ∧ d.clients[i]? = some c ∧ d.clients[j]? = some c'

/-- Nobody left the leaf that `c` is on, or another client did. -/
def Left (d : Daemon) (id : SessionId) (c : Client) (s t : Session) : Prop :=
  t = s ∨ ∃ x, x.leaf = some id ∧ Distinct d x c ∧ t = releaseRole x.observe s

/-- The client and the session of its leaf after an act, from what they were before. -/
inductive Moved (d : Daemon) (id : SessionId) : Act → Client → Session → Prop
  | keep {a : Act} {f : Frame} {c c' : Client} {s t : Session} {qs : List Queued} (h : On d id c s)
    (hsteady : s.Steady t) (hsent : (creditClient f c).Sent c' qs)
    (hqs : ∀ q ∈ qs, ∃ reason, q = ⟨.refused reason, .control⟩) : Moved d id a c' t
  | joins {m : Moment} {idx : Nat} {generation : UInt64} {sessionId : Option UInt64}
    {protocol : UInt8} {observe : Bool} {c c' : Client} {s : Session} {qs : List Queued}
    (hc : d.clients[idx]? = some c) (hs : d.session id = some s)
    (hprotocol : Frame.protocolSupported protocol) (hid : d.resolveAttach sessionId = some id)
    (hmine : s.attached → ¬ observe → d.leafOf idx = some id)
    (hshown : Shown s observe protocol qs)
    (hsent : (c.attachTo id observe protocol s.pty.taken.length).Sent c' qs) :
    Moved d id (.frame m idx (.attach generation sessionId protocol observe)) c'
      (s.attach m generation observe)
  | joined {m : Moment} {idx : Nat} {generation : UInt64} {sessionId : Option UInt64}
    {protocol : UInt8} {observe : Bool} {c : Client} {s : Session} (h : On d id c s)
    (hother : ∃ j, j ≠ idx ∧ d.clients[j]? = some c)
    (hprotocol : Frame.protocolSupported protocol) (hid : d.resolveAttach sessionId = some id)
    (hmine : s.attached → ¬ observe → d.leafOf idx = some id) :
    Moved d id (.frame m idx (.attach generation sessionId protocol observe)) c
      (s.attach m generation observe)
  | left {a : Act} {c : Client} {s t : Session} (h : On d id c s) (hleft : Left d id c s t) :
    Moved d id a c t
  | exit {m : Moment} {c : Client} {s t : Session} {status : Int32} (h : On d id c s)
    (hsteady : s.Steady t) (halive : s.childExit = none)
    (hseen : s.pty.reaped = none → s.pty.turn.2.exited = some status) :
    Moved d id (.reap m id) c (t.observeExit status)
  | fanout {c c' : Client} {s : Session} {p : Pty} {got : List UInt8} (h : On d id c s)
    (hpath : hasProtocol2 d id || d.isWorker) (hgot : got ≠ []) (hgives : s.pty.Gives p got)
    (hcredit : got.length ≤ c.credit)
    (hsent : (c.spend got.length).Sent c'
      [⟨c.liveFrame (min (s.bytesDelivered + got.length) u64Max) got, .live s.pty.taken.length⟩]) :
    Moved d id (.drain id) c' (({ s with pty := p } : Session).deliver got)
  | short {c : Client} {s : Session} {p : Pty} {got : List UInt8} (h : On d id c s)
    (hpath : hasProtocol2 d id || d.isWorker) (hgot : got ≠ []) (hgives : s.pty.Gives p got)
    (hcredit : c.credit < got.length) (hwriter : c.isWriter id → c.protocol = protocol2) :
    Moved d id (.drain id) c (({ s with pty := p } : Session).deliver got)
  | queue {c : Client} {s : Session} {p : Pty} {got : List UInt8} (h : On d id c s)
    (hpath : (hasProtocol2 d id || d.isWorker) = false) (hgot : got ≠ [])
    (hcredit : got.length ≤ s.credit) (hgives : s.pty.Gives p got) :
    Moved d id (.drain id) c
      (({ s with pty := p } : Session).deliverQueued s.pty.taken.length got)
  | flush {c c' : Client} {s t : Session} (h : On d id c s) (hsent : c.Sent c' (c.due s.outbound))
    (hleft : Left d id c { s with outbound := [] } t) : Moved d id .flush c' t
  | lost {c x : Client} {l₁ l₂ : List Client} {s t : Session} (h : On d id c s)
    (hclients : d.clients = l₁ ++ x :: l₂)
    (hstop : ((Client.serve (queued d x.leaf)).exec x).1 = .error .write) (hbehind : c ∈ l₂)
    (hleft : Left d id c { s with outbound := [] } t) : Moved d id .flush c t
  | skipResync {c : Client} {s : Session} (h : On d id c s)
    (hskip : s.resyncPending = false ∨ hasProtocol2 d id) :
    Moved d id (.resync id) c s.takeResyncHistory.2
  | repaint {c : Client} {s : Session} {bytes : List UInt8} (h : On d id c s)
    (hpending : s.resyncPending) (hprotocol : hasProtocol2 d id = false)
    (hbytes : ∃ chip, d.chip.resyncFromHistory s.history = .ok (bytes, chip)) :
    Moved d id (.resync id) c
      (s.takeResyncHistory.2.enqueueOutbound ⟨.data bytes, .repaint s.pty.taken.length⟩)

theorem Moved.same {d : Daemon} {id : SessionId} {a : Act} {c : Client} {s : Session}
    (h : On d id c s) : Moved d id a c s :=
  .keep (f := .resyncRequest) h (.refl s) (.refl c) fun _ hq => absurd hq List.not_mem_nil

theorem Moved.steady {d : Daemon} {id : SessionId} {a : Act} {c : Client} {s t : Session}
    (h : On d id c s) (hsteady : s.Steady t) : Moved d id a c t :=
  .keep (f := .resyncRequest) h hsteady (.refl c) fun _ hq => absurd hq List.not_mem_nil

theorem Moved.sent {d : Daemon} {id : SessionId} {a : Act} {c c' : Client} {s : Session}
    (h : On d id c s) (hsent : c.Sent c' []) : Moved d id a c' s :=
  .keep (f := .resyncRequest) h (.refl s) hsent fun _ hq => absurd hq List.not_mem_nil

theorem left_leave {d : Daemon} {id : SessionId} {x c : Client} (h : Distinct d x c) (s : Session) :
    Left d id c s (x.leave id s) := by
  unfold Client.leave
  split
  case isTrue hleaf => exact .inr ⟨x, hleaf, h, rfl⟩
  case isFalse => exact .inl rfl

theorem On.claimed {d : Daemon} {id : SessionId} {c : Client} {s : Session} (h : On d id c s) :
    id ∈ d.clients.filterMap Client.leaf := List.mem_filterMap.mpr ⟨c, h.mem, h.leaf⟩

theorem On.flushed {d : Daemon} {id : SessionId} {c : Client} {s : Session} (h : On d id c s) :
    flushed d id = some { s with outbound := [] } := by
  rw [flushed_eq h.session, if_pos h.claimed]

theorem On.queued {d : Daemon} {id : SessionId} {c : Client} {s : Session} (h : On d id c s) :
    queued d c.leaf = s.outbound := by
  rw [Daemon.queued, h.leaf, Option.bind_some, h.session]
  rfl

section
variable {d : Daemon} {id i : SessionId} {c' : Client} {s' : Session}

theorem Moved.of_attach {m : Moment} {idx : Nat} {generation : UInt64} {sessionId : Option UInt64}
    {protocol : UInt8} {observe : Bool} {s : Session} {g : Client → Client} {qs : List Queued}
    (hprotocol : Frame.protocolSupported protocol) (hid : d.resolveAttach sessionId = some i)
    (hs : d.session i = some s) (hmine : s.attached → ¬ observe → d.leafOf idx = some i)
    (hshown : Shown s observe protocol qs)
    (hsent : ∀ c : Client, (c.attachTo i observe protocol s.pty.taken.length).Sent (g c) qs)
    (hc' : c' ∈ d.clients.modify idx g) (hleaf : c'.leaf = some id)
    (hs' : update d.session i (some (s.attach m generation observe)) id = some s') :
    Moved d id (.frame m idx (.attach generation sessionId protocol observe)) c' s' := by
  rcases mem_modify_cases hc' with ⟨c, hc, rfl⟩ | ⟨j, hne, hj⟩
  · obtain rfl : i = id := Option.some.inj ((hsent c).leaf.symm.trans hleaf)
    rw [update_self] at hs'
    obtain rfl := Option.some.inj hs'
    exact .joins hc hs hprotocol hid hmine hshown (hsent c)
  · rcases update_cases hs' with ⟨rfl, rfl⟩ | ⟨-, hs'⟩
    · exact .joined ⟨List.mem_of_getElem? hj, hleaf, hs⟩ ⟨j, hne, hj⟩ hprotocol hid hmine
    · exact .same ⟨List.mem_of_getElem? hj, hleaf, hs'⟩

theorem Moved.of_own {m : Moment} {idx : Nat} {f : Frame} {s t : Session} {c : Client}
    (hc : d.clients[idx]? = some c) (hon : c.leaf = some i) (hs : d.session i = some s)
    (hsteady : s.Steady t) (hc' : c' ∈ d.clients.set idx (creditClient f c))
    (hleaf : c'.leaf = some id) (hs' : update d.session i (some t) id = some s') :
    Moved d id (.frame m idx f) c' s' := by
  rcases mem_set_cases hc' with rfl | ⟨j, -, hj⟩
  · obtain rfl : i = id := by
      rw [(creditClient_role f c).1, hon] at hleaf
      exact Option.some.inj hleaf
    rw [update_self] at hs'
    obtain rfl := Option.some.inj hs'
    exact .keep ⟨List.mem_of_getElem? hc, hon, hs⟩ hsteady (.refl _)
      fun _ hq => absurd hq List.not_mem_nil
  · rcases update_cases hs' with ⟨rfl, rfl⟩ | ⟨-, hs'⟩
    · exact .steady ⟨List.mem_of_getElem? hj, hleaf, hs⟩ hsteady
    · exact .same ⟨List.mem_of_getElem? hj, hleaf, hs'⟩

theorem Moved.of_fanout {s : Session} {p : Pty} {got : List UInt8} {g : Client → Client}
    (hs : d.session i = some s) (hpath : hasProtocol2 d i || d.isWorker) (hgot : got ≠ [])
    (hgives : s.pty.Gives p got)
    (hcredit : ∀ c ∈ d.clients, c.isWriter i → c.protocol ≠ protocol2 → got.length ≤ c.credit)
    (hother : ∀ c : Client, c.leaf ≠ some i → g c = c)
    (hshort : ∀ c : Client, c.credit < got.length → g c = c)
    (hsent : ∀ c ∈ d.clients, c.leaf = some i → got.length ≤ c.credit →
      (c.spend got.length).Sent (g c)
        [⟨c.liveFrame (min (s.bytesDelivered + got.length) u64Max) got, .live s.pty.taken.length⟩])
    (hc' : c' ∈ d.clients.map g) (hleaf : c'.leaf = some id)
    (hs' : update d.session i (some (({ s with pty := p } : Session).deliver got)) id = some s') :
    Moved d id (.drain i) c' s' := by
  obtain ⟨c, hc, rfl⟩ := List.mem_map.mp hc'
  have hstay : c.leaf = (g c).leaf := by
    by_cases hci : c.leaf = some i
    · by_cases hle : got.length ≤ c.credit
      · exact (hsent c hc hci hle).leaf.symm
      · rw [hshort c (Nat.lt_of_not_le hle)]
    · rw [hother c hci]
  rcases update_cases hs' with ⟨rfl, rfl⟩ | ⟨hne, hs'⟩
  · have hon : On d id c s := ⟨hc, hstay.trans hleaf, hs⟩
    by_cases hle : got.length ≤ c.credit
    · exact .fanout hon hpath hgot hgives hle (hsent c hc hon.leaf hle)
    · have hlt := Nat.lt_of_not_le hle
      rw [hshort c hlt]
      refine .short hon hpath hgot hgives hlt fun hwriter => ?_
      by_contra hprotocol
      exact hle (hcredit c hc hwriter hprotocol)
  · have hci : c.leaf ≠ some i := by
      rw [hstay, hleaf]
      exact fun h => hne (Option.some.inj h)
    rw [hother c hci]
    exact .same ⟨hc, hstay.trans hleaf, hs'⟩

theorem Moved.of_served {c : Client} {t : Session} (hc : c ∈ d.clients)
    (hsent : c.Sent c' (c.due (queued d c.leaf))) (hleaf : c'.leaf = some id)
    (ht : flushed d id = some t) (hleft : Left d id c t s') : Moved d id .flush c' s' := by
  obtain ⟨s, hs, -⟩ := flushed_some ht
  have hon : On d id c s := ⟨hc, hsent.leaf.symm.trans hleaf, hs⟩
  rw [hon.flushed] at ht
  obtain rfl := Option.some.inj ht
  rw [hon.queued] at hsent
  exact .flush hon hsent hleft

/-- A flush that fails for one client has served those in front of it, and none behind. -/
theorem Moved.of_dropped {g : Client → Client} {l₁ l₂ : List Client} {x : Client} {t : Session}
    (hclients : d.clients = l₁ ++ x :: l₂)
    (hstop : ((Client.serve (queued d x.leaf)).exec x).1 = .error .write)
    (hsent : ∀ c ∈ l₁, c.Sent (g c) (c.due (queued d c.leaf))) (hc' : c' ∈ l₁.map g ++ l₂)
    (hleaf : c'.leaf = some id) (ht : flushed d id = some t) :
    Moved d id .flush c' (x.leave id t) := by
  have hx : d.clients[l₁.length]? = some x := by rw [hclients]; simp
  rcases List.mem_append.mp hc' with hfirst | hlast
  · obtain ⟨c, hc, rfl⟩ := List.mem_map.mp hfirst
    obtain ⟨j, hj⟩ := List.mem_iff_getElem?.mp hc
    have hlt := (List.getElem?_eq_some_iff.mp hj).1
    have hget : d.clients[j]? = some c := by rw [hclients, List.getElem?_append_left hlt, hj]
    exact .of_served (List.mem_of_getElem? hget) (hsent c hc) hleaf ht
      (left_leave ⟨l₁.length, j, Nat.ne_of_gt hlt, hx, hget⟩ t)
  · obtain ⟨s, hs, -⟩ := flushed_some ht
    obtain ⟨j, hj⟩ := List.mem_iff_getElem?.mp hlast
    have hget : d.clients[l₁.length + 1 + j]? = some c' := by
      rw [hclients, List.getElem?_append_right (by omega)]
      rw [show l₁.length + 1 + j - l₁.length = j + 1 by omega]
      exact hj
    have hon : On d id c' s := ⟨List.mem_of_getElem? hget, hleaf, hs⟩
    rw [hon.flushed] at ht
    obtain rfl := Option.some.inj ht
    exact .lost hon hclients hstop hlast (left_leave ⟨l₁.length, _, by omega, hx, hget⟩ _)

end

/-- A client that is on a leaf after an act moved there with it. -/
theorem Effect.moved {d : Daemon} {a : Act} {S : Sessions} {C : List Client} (h : Effect d a S C)
    (hlinked : Linked d) {id : SessionId} {c' : Client} {s' : Session} (hc' : c' ∈ C)
    (hleaf : c'.leaf = some id) (hs' : S id = some s') : Moved d id a c' s' := by
  have hsame : ∀ {a}, c' ∈ d.clients → d.session id = some s' → Moved d id a c' s' :=
    fun hmem hs => .same ⟨hmem, hleaf, hs⟩
  cases h with
  | idle => exact hsame hc' hs'
  | accept stream =>
    rcases List.mem_append.mp hc' with hmem | hnew
    · exact hsame hmem hs'
    · obtain rfl := List.mem_singleton.mp hnew
      cases hleaf
  | spawn turns hid =>
    obtain ⟨s, hs⟩ := hlinked c' hc' id hleaf
    rcases update_cases hs' with ⟨rfl, -⟩ | ⟨-, hs'⟩
    · rw [hid] at hs
      cases hs
    · exact hsame hc' hs'
  | fetch hc hsent =>
    rcases mem_set_cases hc' with rfl | ⟨j, -, hj⟩
    · exact .sent ⟨List.mem_of_getElem? hc, hsent.leaf.symm.trans hleaf, hs'⟩ hsent
    · exact hsame (List.mem_of_getElem? hj) hs'
  | @hangup idx x hx =>
    obtain ⟨j, hne, hj⟩ := List.mem_eraseIdx_iff_getElem?.mp hc'
    obtain ⟨s, hs, rfl⟩ := Option.map_eq_some_iff.mp hs'
    exact .left ⟨List.mem_of_getElem? hj, hleaf, hs⟩ (left_leave ⟨idx, j, hne.symm, hx, hj⟩ s)
  | drop =>
    obtain ⟨j, -, hj⟩ := List.mem_eraseIdx_iff_getElem?.mp hc'
    exact hsame (List.mem_of_getElem? hj) hs'
  | @refuse _ _ _ _ _ _ reason _ hsent =>
    rcases mem_modify_cases hc' with ⟨c, hc, rfl⟩ | ⟨j, -, hj⟩
    · refine .keep (f := .resyncRequest) ⟨List.mem_of_getElem? hc, ?_, hs'⟩ (.refl s') (hsent c) ?_
      · exact (hsent c).leaf.symm.trans hleaf
      · intro q hq
        exact ⟨reason, List.mem_singleton.mp hq⟩
    · exact hsame (List.mem_of_getElem? hj) hs'
  | attach hprotocol hid hs hmine hshown hsent =>
    exact .of_attach hprotocol hid hs hmine hshown hsent hc' hleaf hs'
  | own _ _ hc hon hs hsteady => exact .of_own hc hon hs hsteady hc' hleaf hs'
  | reap hs hsteady | stall hs hsteady =>
    rcases update_cases hs' with ⟨rfl, rfl⟩ | ⟨-, hs'⟩
    · exact .steady ⟨hc', hleaf, hs⟩ hsteady
    · exact hsame hc' hs'
  | exit hs hsteady halive _ _ hturn =>
    rcases update_cases hs' with ⟨rfl, rfl⟩ | ⟨-, hs'⟩
    · exact .exit ⟨hc', hleaf, hs⟩ hsteady halive fun hnone => (hturn hnone).2
    · exact hsame hc' hs'
  | fanout hs hpath hgot hgives hcredit hother hshort hsent =>
    exact .of_fanout hs hpath hgot hgives hcredit hother hshort hsent hc' hleaf hs'
  | queue hs hpath hgot hcredit hgives =>
    rcases update_cases hs' with ⟨rfl, rfl⟩ | ⟨-, hs'⟩
    · exact .queue ⟨hc', hleaf, hs⟩ hpath hgot hcredit hgives
    · exact hsame hc' hs'
  | flush hsent =>
    obtain ⟨c, hc, rfl⟩ := List.mem_map.mp hc'
    exact .of_served hc (hsent c hc) hleaf hs' (.inl rfl)
  | flushDrop hclients hstop hsent =>
    obtain ⟨t, ht, rfl⟩ := Option.map_eq_some_iff.mp hs'
    exact .of_dropped hclients hstop hsent hc' hleaf ht
  | skipResync hs hskip =>
    rcases update_cases hs' with ⟨rfl, rfl⟩ | ⟨-, hs'⟩
    · exact .skipResync ⟨hc', hleaf, hs⟩ hskip
    · exact hsame hc' hs'
  | repaint hs hpending hprotocol hbytes =>
    rcases update_cases hs' with ⟨rfl, rfl⟩ | ⟨-, hs'⟩
    · exact .repaint ⟨hc', hleaf, hs⟩ hpending hprotocol hbytes
    · exact hsame hc' hs'

/-- No leaf disappears. -/
theorem Effect.keepsLeaf {d : Daemon} {a : Act} {S : Sessions} {C : List Client}
    (h : Effect d a S C) {id : SessionId} {s : Session} (hs : d.session id = some s) :
    ∃ t, S id = some t := by
  by_cases ha : a.isReap = true
  · have hupdate : ∀ i t, d.session i = some t → ∀ t', ∃ v, update d.session i (some t') id = some v := by
      intro i t ht t'
      obtain ⟨v, hv, -⟩ := update_rel (P := fun _ _ => True) (fun _ => trivial) ht (t := t') trivial hs
      exact ⟨v, hv⟩
    cases h with
    | idle => exact ⟨s, hs⟩
    | reap ht => exact hupdate _ _ ht _
    | exit ht => exact hupdate _ _ ht _
    | accept | spawn | fetch | hangup | drop | refuse | attach | own | stall | fanout | queue | flush |
      flushDrop | skipResync | repaint => cases ha
  · obtain ⟨t, ht, -⟩ := h.childExit (by simpa using ha) hs
    exact ⟨t, ht⟩

theorem Linked.step {d d' : Daemon} {a : Act} (h : Linked d) (htakes : a.Takes d d') : Linked d' := by
  intro c' hc' id hleaf
  have heffect := htakes.effect.1
  generalize d'.session = S at heffect ⊢
  generalize d'.clients = C at heffect hc'
  have hkept : ∀ c ∈ d.clients, c.leaf = some id → ∃ t, S id = some t := by
    intro c hc hcleaf
    obtain ⟨s, hs⟩ := h c hc id hcleaf
    exact heffect.keepsLeaf hs
  cases heffect with
  | idle | spawn | reap | exit | stall | queue | skipResync | repaint => exact hkept c' hc' hleaf
  | accept =>
    rcases List.mem_append.mp hc' with hmem | hnew
    · exact hkept c' hmem hleaf
    · obtain rfl := List.mem_singleton.mp hnew
      cases hleaf
  | fetch hc hsent =>
    rcases mem_set_cases hc' with rfl | ⟨j, -, hj⟩
    · exact hkept _ (List.mem_of_getElem? hc) (hsent.leaf.symm.trans hleaf)
    · exact hkept c' (List.mem_of_getElem? hj) hleaf
  | hangup | drop => exact hkept c' (List.mem_of_mem_eraseIdx hc') hleaf
  | refuse hsent =>
    rcases mem_modify_cases hc' with ⟨c, hc, rfl⟩ | ⟨j, -, hj⟩
    · exact hkept c (List.mem_of_getElem? hc) ((hsent c).leaf.symm.trans hleaf)
    · exact hkept c' (List.mem_of_getElem? hj) hleaf
  | attach _ _ hs _ _ hsent =>
    rcases mem_modify_cases hc' with ⟨c, hc, rfl⟩ | ⟨j, -, hj⟩
    · obtain rfl := Option.some.inj ((hsent c).leaf.symm.trans hleaf)
      exact ⟨_, update_self ..⟩
    · exact hkept c' (List.mem_of_getElem? hj) hleaf
  | @own m idx f i s t c hf _ hc hleaf' =>
    rcases mem_set_cases hc' with rfl | ⟨j, -, hj⟩
    · exact hkept c (List.mem_of_getElem? hc) ((creditClient_role f c).1.symm.trans hleaf)
    · exact hkept c' (List.mem_of_getElem? hj) hleaf
  | @fanout i s p got g _ _ _ _ _ hother hshort hsent =>
    obtain ⟨c, hc, rfl⟩ := List.mem_map.mp hc'
    refine hkept c hc ?_
    by_cases hci : c.leaf = some i
    · by_cases hle : got.length ≤ c.credit
      · exact (hsent c hc hci hle).leaf.symm.trans hleaf
      · rwa [hshort c (Nat.lt_of_not_le hle)] at hleaf
    · rwa [hother c hci] at hleaf
  | flush hsent =>
    obtain ⟨c, hc, rfl⟩ := List.mem_map.mp hc'
    exact hkept c hc ((hsent c hc).leaf.symm.trans hleaf)
  | flushDrop hclients _ hsent =>
    rcases List.mem_append.mp hc' with hfirst | hlast
    · obtain ⟨c, hc, rfl⟩ := List.mem_map.mp hfirst
      exact hkept c (by simp [hclients, hc]) ((hsent c hc).leaf.symm.trans hleaf)
    · exact hkept c' (by simp [hclients, hlast]) hleaf

theorem linked_runs {G : Daemon → Act → Prop} {d₀ d : Daemon} (h₀ : d₀.clients = [])
    (hrun : Runs Act.Takes G d₀ d) : Linked d := by
  refine hrun.invariant (I := Linked) (fun _ _ _ h _ htakes => h.step htakes) fun c hc => ?_
  rw [h₀] at hc
  cases hc

/-- What every act keeps of a client and its leaf, with nobody there to start with. -/
theorem moved_runs {G : Daemon → Act → Prop} {I : SessionId → Client → Session → Prop}
    {d₀ d : Daemon} (h₀ : d₀.clients = [])
    (hstep : ∀ d a id c s, Runs Act.Takes G d₀ d → G d a → (∀ id c s, On d id c s → I id c s) →
      Moved d id a c s → I id c s)
    (hrun : Runs Act.Takes G d₀ d) : ∀ id c s, On d id c s → I id c s := by
  induction hrun with
  | refl =>
    intro id c s h
    have hc := h.mem
    rw [h₀] at hc
    cases hc
  | tail hrun hact ih =>
    obtain ⟨a, hG, htakes⟩ := hact
    intro id c s h
    exact hstep _ a id c s hrun hG ih
      (htakes.effect.1.moved (linked_runs h₀ hrun) h.mem h.leaf h.session)

-- ---------------------------------------------------------------------------
-- Since the attach
-- ---------------------------------------------------------------------------

namespace Client

/-- What was put in the outbox since the client took its present role. -/
def since (c : Client) : List Queued := c.log.drop c.attachedAt

theorem Sent.since {c c' : Client} {qs : List Queued} (h : c.Sent c' qs)
    (hle : c.attachedAt ≤ c.log.length) : c'.since = c.since ++ qs := by
  rw [Client.since, h.log, h.attachedAt, List.drop_append_of_le_length hle]
  rfl

theorem Sent.attachedAt_le {c c' : Client} {qs : List Queued} (h : c.Sent c' qs)
    (hle : c.attachedAt ≤ c.log.length) : c'.attachedAt ≤ c'.log.length := by
  rw [h.log, h.attachedAt, List.length_append]
  omega

theorem since_attachTo (c : Client) (id : SessionId) (observe : Bool) (protocol : UInt8)
    (taken : Nat) : (c.attachTo id observe protocol taken).since =
      if c.hasRole id observe protocol then c.since else [] := by
  unfold since attachTo setRole
  dsimp only
  split
  case isTrue => rfl
  case isFalse => exact List.drop_length

theorem attachedAt_attachTo {c : Client} {id : SessionId} {observe : Bool} {protocol : UInt8}
    (h : c.hasRole id observe protocol = true → c.attachedAt ≤ c.log.length) (taken : Nat) :
    (c.attachTo id observe protocol taken).attachedAt ≤
      (c.attachTo id observe protocol taken).log.length := by
  unfold attachTo setRole
  dsimp only
  split
  case isTrue hrole => exact h hrole
  case isFalse => exact Nat.le_refl _

theorem Sent.since_attachTo {c c' : Client} {id : SessionId} {observe : Bool} {protocol : UInt8}
    {taken : Nat} {qs : List Queued} (h : (c.attachTo id observe protocol taken).Sent c' qs)
    (hle : c.hasRole id observe protocol = true → c.attachedAt ≤ c.log.length) :
    c'.since = (if c.hasRole id observe protocol then c.since else []) ++ qs := by
  rw [h.since (attachedAt_attachTo hle taken), Client.since_attachTo]

theorem Sent.since_spend {c c' : Client} {n : Nat} {qs : List Queued} (h : (c.spend n).Sent c' qs)
    (hle : c.attachedAt ≤ c.log.length) : c'.since = c.since ++ qs := h.since hle

theorem Sent.since_credit {c c' : Client} {f : Frame} {qs : List Queued}
    (h : (creditClient f c).Sent c' qs) (hle : c.attachedAt ≤ c.log.length) :
    c'.since = c.since ++ qs := by
  obtain ⟨-, -, -, hlog, hat, -⟩ := creditClient_role f c
  have hsince : (creditClient f c).since = c.since := by
    rw [Client.since, hlog, hat]
    rfl
  rw [h.since (by rw [hlog, hat]; exact hle), hsince]

theorem Sent.role_credit {c c' : Client} {f : Frame} {qs : List Queued} (h : (creditClient f c).Sent c' qs) :
    c.observe = c'.observe ∧ c.protocol = c'.protocol ∧ c'.attachedFrom = c.attachedFrom := by
  obtain ⟨-, hobserve, hprotocol, -, -, hfrom⟩ := creditClient_role f c
  exact ⟨(h.observe.trans hobserve).symm, (h.protocol.trans hprotocol).symm, h.attachedFrom.trans hfrom⟩

theorem Sent.writer_attachTo {c c' : Client} {id : SessionId} {observe : Bool} {protocol : UInt8}
    {taken : Nat} {s : Session} {qs : List Queued}
    (h : (c.attachTo id observe protocol taken).Sent c' qs) (hshown : Shown s observe protocol qs)
    (hobserve : c'.observe = false) (hprotocol : c'.protocol ≠ protocol2) :
    observe = false ∧ protocol ≠ protocol2 ∧ qs = [] := by
  obtain rfl : observe = false := h.observe.symm.trans hobserve
  rw [h.protocol] at hprotocol
  exact ⟨rfl, hprotocol, hshown.writer hprotocol⟩

end Client

/-- The role a client takes is new, or the one it has on that leaf. -/
theorem On.of_hasRole {d : Daemon} {idx : Nat} {c : Client} {id : SessionId} {s : Session}
    {observe : Bool} {protocol : UInt8} (hc : d.clients[idx]? = some c)
    (hs : d.session id = some s) (h : c.hasRole id observe protocol = true) : On d id c s :=
  ⟨List.mem_of_getElem? hc, (Client.hasRole_iff.mp h).1, hs⟩

theorem attachedAt_runs {G : Daemon → Act → Prop} {d₀ d : Daemon} (h₀ : d₀.clients = [])
    (hrun : Runs Act.Takes G d₀ d) {id : SessionId} {c : Client} {s : Session} (h : On d id c s) :
    c.attachedAt ≤ c.log.length := by
  refine moved_runs (I := fun _ c _ => c.attachedAt ≤ c.log.length) h₀ ?_ hrun id c s h
  intro d a id c s _ _ hall hmoved
  cases hmoved with
  | @keep _ f c _ _ _ _ h _ hsent =>
    obtain ⟨-, -, -, hlog, hat, -⟩ := creditClient_role f c
    refine hsent.attachedAt_le ?_
    rw [hlog, hat]
    exact hall id c _ h
  | @joins m idx generation sessionId protocol observe c c' s qs hc hs _ _ _ _ hsent =>
    refine hsent.attachedAt_le (Client.attachedAt_attachTo (fun hrole => ?_) _)
    exact hall id c s (.of_hasRole hc hs hrole)
  | joined h | left h | exit h | short h | queue h | lost h | skipResync h | repaint h =>
    exact hall id _ _ h
  | @fanout c _ s _ _ h _ _ _ _ hsent =>
    have hle := hall id c s h
    exact hsent.attachedAt_le hle
  | flush h hsent => exact hsent.attachedAt_le (hall id _ _ h)

end Rill.Daemon
