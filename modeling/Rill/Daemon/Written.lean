import Rill.Daemon.Flush
import Rill.Daemon.Moved

/-!
# What a connection is sent

Every frame ever put in an outbox, as bytes that are on the socket or still owed: what the
record of a connection says is what its peer reads.
-/

namespace Rill.Daemon

open Lib Attach Kernel

-- ---------------------------------------------------------------------------
-- A flush and a read
-- ---------------------------------------------------------------------------

/-- A client that is given what is due to it; what it sends is not touched. -/
structure Served (d : Daemon) (c c' : Client) : Prop where
  gets : c.Gets c' (owed d c)
  fits : ∀ q ∈ owed d c, q.frame.Fits
  decoder : c'.decoder = c.decoder
  grows : c.stream.sent <+: c'.stream.sent

theorem serving_served {d : Daemon} {c : Client} (h : ((serving d).exec c).1 = .ok ()) :
    Served d c ((serving d).exec c).2 := by
  let I (c' : Client) : Prop := c'.decoder = c.decoder ∧ c.stream.sent <+: c'.stream.sent
  have hsend : ∀ q, Op.Keeps I (Client.send q) :=
    fun q => Op.Keeps.bind (Op.Keeps.lift _) fun _ => Op.Keeps.modify fun c' h => h
  have hwrite : Op.Keeps I Client.writeOutbox := by
    refine Op.Keeps.get_bind fun c' hc' => ?_
    have hgrows := Client.writeLoop_grows c'.stream.writes c'.outbox c'.stream.sent
    dsimp only
    rw [Op.exec_modify_bind]
    split
    case isTrue => exact ⟨hc'.1, hc'.2.trans hgrows⟩
    case isFalse => exact ⟨hc'.1, hc'.2.trans hgrows⟩
  have hserve : ∀ frames, Op.Keeps I (Client.serve frames) := by
    intro frames
    refine Op.Keeps.bind Op.Keeps.get fun c' => ?_
    exact Op.Keeps.bind (Op.Keeps.mapError _ (Op.Keeps.forM hsend _)) fun _ => hwrite
  obtain ⟨hfits, -, hgets⟩ := serving_ok h
  have hkept := hserve (queued d c.leaf) c ⟨rfl, List.prefix_refl _⟩
  rw [← exec_serving] at hkept
  exact ⟨hgets, hfits, hkept.1, hkept.2⟩

/-- Everyone is served, or those in front of the first whose write fails. -/
theorem flush_cases {d d' : Daemon} (h : flushOutbound.exec d = (.ok (), d')) :
    (d.clients.findIdx? (failing d) = none ∧ d'.session = flushed d ∧
        List.Forall₂ (Served d) d.clients d'.clients) ∨
      ∃ l₁ c l₂ k₁, d.clients = l₁ ++ c :: l₂ ∧
        d.clients.findIdx? (failing d) = some l₁.length ∧ failing d c = true ∧
        d'.session = (fun id => (flushed d id).map (c.leave id)) ∧
        d'.clients = k₁ ++ l₂ ∧ List.Forall₂ (Served d) l₁ k₁ := by
  have hserved : ∀ {l : List Client}, (∀ c ∈ l, ((serving d).exec c).1 = .ok ()) →
      List.Forall₂ (Served d) l (l.map fun c => ((serving d).exec c).2) := by
    intro l hl
    rw [List.forall₂_map_right_iff, List.forall₂_same]
    exact fun c hc => serving_served (hl c hc)
  have hrun : (flushOutbound.exec d).2 = d' := by rw [h]
  rcases Op.each_split (serving d) d.clients with hall | ⟨l₁, c, l₂, e, c', hsplit, hall, hc⟩
  · have hclients := clients_flushOutbound_ok hall
    rw [hrun] at hclients
    refine .inl ⟨findIdx?_served hall, ?_, hclients ▸ hserved hall⟩
    rw [flushOutbound, Op.exec_get_bind, Op.exec_modify_bind, Op.each_ok hall] at hrun
    rw [← hrun]
    rfl
  · cases e with
    | encode e =>
      rw [flushOutbound, Op.exec_get_bind, Op.exec_modify_bind, hsplit, Op.each_error hall hc] at h
      cases h
    | write =>
      have hclients := clients_flushOutbound_write hsplit hall hc
      rw [hrun] at hclients
      have hfails : failing d c = true := by
        refine failing_of_stop ?_
        rw [← exec_serving, hc]
      refine .inr ⟨l₁, c, l₂, _, hsplit, ?_, hfails, ?_, hclients, hserved hall⟩
      · rw [hsplit, List.findIdx?_append, findIdx?_served hall, List.findIdx?_cons, hfails]
        simp
      · have hrole := Client.serve_role (queued d c.leaf) c
        rw [← exec_serving, hc] at hrole
        have hleave : c'.leave = c.leave := by
          funext id s
          rw [Client.leave, Client.leave, hrole.1, hrole.2]
        rw [flushOutbound, Op.exec_get_bind, Op.exec_modify_bind, hsplit, Op.each_error hall hc] at hrun
        dsimp only at hrun
        rw [Op.exec_modify_bind] at hrun
        have hget : ((l₁.map fun c => ((serving d).exec c).2) ++ c' :: l₂)[l₁.length]? = some c' := by
          simp
        rw [← hrun, ← hleave]
        refine (session_dropClient hget).trans ?_
        rw [flushed, hsplit]
        rfl

/-- A read leaves its client where it was, or ends the connection. -/
theorem fetch_cases {idx : Nat} {c : Client} {frames : List Frame} {d d' : Daemon}
    (hc : d.clients[idx]? = some c) (h : (fetchFrames idx).exec d = (.ok frames, d')) :
    (frames = [] ∧ d' = d.dropClient idx) ∨
      (c.stream.reads.headD .wouldBlock = .wouldBlock ∧ frames = [] ∧
        d' = d.setClients (d.clients.set idx
          { c with stream := { c.stream with reads := c.stream.reads.tail } })) ∨
      ∃ bytes decoder, c.stream.reads.headD .wouldBlock = .data bytes ∧
        c.decoder.push (bytes.take socketBuf) = .ok (frames, decoder) ∧
        d' = d.setClients (d.clients.set idx
          { c with stream := { c.stream with reads := c.stream.reads.tail }, decoder }) := by
  rw [fetchFrames, Op.exec_get_bind, hc] at h
  dsimp only [Client.read] at h
  cases hread : c.stream.reads.headD .wouldBlock with
  | eof | failed =>
    rw [hread] at h
    obtain ⟨hframes, rfl⟩ := Prod.mk.inj h
    exact .inl ⟨(Except.ok.inj hframes).symm, rfl⟩
  | wouldBlock =>
    rw [hread] at h
    obtain ⟨hframes, rfl⟩ := Prod.mk.inj h
    refine .inr (.inl ⟨rfl, (Except.ok.inj hframes).symm, ?_⟩)
    exact congrArg d.setClients (modify_of_get hc _)
  | data bytes =>
    rw [hread] at h
    dsimp only at h
    by_cases hempty : (bytes.take socketBuf).isEmpty = true
    · rw [if_pos hempty] at h
      obtain ⟨hframes, rfl⟩ := Prod.mk.inj h
      exact .inl ⟨(Except.ok.inj hframes).symm, rfl⟩
    · rw [if_neg hempty] at h
      dsimp only at h
      cases hpush : c.decoder.push (bytes.take socketBuf) with
      | error e =>
        rw [hpush] at h
        obtain ⟨hframes, rfl⟩ := Prod.mk.inj h
        exact .inl ⟨(Except.ok.inj hframes).symm, rfl⟩
      | ok r =>
        obtain ⟨frames', decoder⟩ := r
        rw [hpush] at h
        obtain ⟨hframes, rfl⟩ := Prod.mk.inj h
        obtain rfl := Except.ok.inj hframes
        exact .inr (.inr ⟨bytes, decoder, rfl, hpush, congrArg d.setClients (modify_of_get hc _)⟩)

-- ---------------------------------------------------------------------------
-- A connection that is kept
-- ---------------------------------------------------------------------------

/-- `c'` is `c` after whole frames were sent to it; what it sends is not touched. -/
structure Grown (c c' : Client) : Prop where
  sent : ∃ qs, c'.log = c.log ++ qs ∧ (∀ q ∈ qs, q.frame.Fits) ∧
    c'.stream.sent ++ c'.outbox = c.stream.sent ++ c.outbox ++ Client.wires qs
  grows : c.stream.sent <+: c'.stream.sent
  decoder : c'.decoder = c.decoder

namespace Grown

variable {c c' c'' : Client}

theorem of_eq (hlog : c'.log = c.log) (hsent : c'.stream.sent = c.stream.sent)
    (houtbox : c'.outbox = c.outbox) (hdecoder : c'.decoder = c.decoder) : Grown c c' where
  sent := ⟨[], by simp [hlog], by simp, by simp [hsent, houtbox, Client.wires]⟩
  grows := hsent ▸ List.prefix_refl _
  decoder := hdecoder

theorem refl (c : Client) : Grown c c := of_eq rfl rfl rfl rfl

theorem trans (h : Grown c c') (k : Grown c' c'') : Grown c c'' where
  sent := by
    obtain ⟨qs, hlog, hfits, hbytes⟩ := h.sent
    obtain ⟨ps, klog, kfits, kbytes⟩ := k.sent
    refine ⟨qs ++ ps, ?_, ?_, ?_⟩
    · rw [klog, hlog, List.append_assoc]
    · exact List.forall_mem_append.mpr ⟨hfits, kfits⟩
    · rw [kbytes, hbytes]
      simp [Client.wires]
  grows := h.grows.trans k.grows
  decoder := k.decoder.trans h.decoder

theorem of_served {d : Daemon} (h : Served d c c') : Grown c c' :=
  ⟨⟨_, h.gets.log, h.fits, h.gets.bytes⟩, h.grows, h.decoder⟩

theorem send (q : Queued) : Op.Keeps (Grown c) (Client.send q) := by
  intro c' h
  rw [Client.exec_send]
  by_cases hfits : q.frame.Fits
  · rw [Frame.encode_of_fits hfits]
    refine h.trans ⟨⟨[q], rfl, ?_, ?_⟩, List.prefix_refl _, rfl⟩
    · simpa using hfits
    · simp [Client.push, Client.wires]
  · rw [Frame.encode_of_not_fits hfits]
    exact h

theorem fanout (id : SessionId) (offset start : Nat) (bytes : List UInt8) :
    Op.Keeps (Grown c) (Client.fanout id offset start bytes) := by
  refine Op.Keeps.bind Op.Keeps.get fun c' => Op.Keeps.ite (fun _ => Op.Keeps.pure _) fun _ => ?_
  cases Client.liveChunk c'.credit bytes.length with
  | none => exact Op.Keeps.pure _
  | some n => exact Op.Keeps.bind (Op.Keeps.modify fun _ h => h.trans (of_eq rfl rfl rfl rfl)) fun _ => send _

end Grown

/-- No connection has come or gone, and each has grown. -/
def AllGrown (d d' : Daemon) : Prop := List.Forall₂ Grown d.clients d'.clients

namespace AllGrown

variable {d d' : Daemon}

theorem refl (d : Daemon) : AllGrown d d := List.forall₂_same.mpr fun c _ => .refl c

theorem of_eq (h : d'.clients = d.clients) : AllGrown d d' := by
  rw [AllGrown, h]
  exact refl d

theorem trans {d'' : Daemon} (h : AllGrown d d') (k : AllGrown d' d'') : AllGrown d d'' :=
  forall₂_trans (fun _ _ _ h k => h.trans k) h k

theorem modifyClient (d : Daemon) {idx : Nat} {f : Client → Client}
    (hf : ∀ c, d.clients[idx]? = some c → Grown c (f c)) : AllGrown d (d.modifyClient idx f) :=
  forall₂_modify_right .refl hf

theorem each {m : Op Client Attach.Error Unit} (hm : ∀ c, Op.Keeps (Grown c) m) (l : List Client) :
    List.Forall₂ Grown l (Op.each m l).2 := by
  induction l with
  | nil => exact .nil
  | cons c l ih =>
    have hc := hm c c (.refl c)
    unfold Op.each
    rcases hrun : m.exec c with ⟨e | _, c'⟩
    · rw [hrun] at hc
      exact .cons hc (List.forall₂_same.mpr fun c _ => .refl c)
    rw [hrun] at hc
    rcases hrest : Op.each m l with ⟨⟨i, e⟩ | _, rest⟩
    · rw [hrest] at ih
      exact .cons hc ih
    · rw [hrest] at ih
      exact .cons hc ih

section

variable {d₀ : Daemon}

theorem onKernel (m : Op Kernel Kernel.Error α) : Op.Keeps (AllGrown d₀) (onKernel m) := fun _ h => h

theorem onLeaf (id : SessionId) (missing : α) (m : Op Session Kernel.Error α) :
    Op.Keeps (AllGrown d₀) (onLeaf id missing m) := by
  refine Op.Keeps.get_bind fun d h => ?_
  cases d.session id with
  | none => exact h
  | some s => exact h

theorem sendTo (idx : Nat) (q : Queued) : Op.Keeps (AllGrown d₀) (sendTo idx q) := by
  refine Op.Keeps.get_bind fun d h => ?_
  cases hc : d.clients[idx]? with
  | none => exact h
  | some c =>
    refine h.trans (modifyClient d fun c' hc' => ?_)
    obtain rfl := Option.some.inj (hc.symm.trans hc')
    exact Grown.send q c (.refl c)

theorem setChipOr (r : Except Vt.Error Vt.VtEngine) : Op.Keeps (AllGrown d₀) (setChipOr r) := by
  cases r with
  | ok chip => exact Op.Keeps.modify fun _ h => h
  | error e => exact Op.Keeps.throw _

theorem emitCheckpoint (idx : Nat) (id : SessionId) : Op.Keeps (AllGrown d₀) (emitCheckpoint idx id) := by
  refine Op.Keeps.bind Op.Keeps.get fun d => ?_
  cases d.session id with
  | none => exact Op.Keeps.pure _
  | some s =>
    refine Op.Keeps.bind Op.Keeps.get fun d => Op.Keeps.bind (setChipOr _) fun _ => ?_
    refine Op.Keeps.bind Op.Keeps.get fun d => ?_
    exact Op.Keeps.bind (Op.Keeps.modify fun _ h => h) fun _ => sendTo _ _

theorem sendHistory (idx : Nat) (id : SessionId) : Op.Keeps (AllGrown d₀) (sendHistory idx id) := by
  refine Op.Keeps.bind Op.Keeps.get fun d => ?_
  cases d.session id with
  | none => exact Op.Keeps.pure _
  | some s => exact Op.Keeps.ite (fun _ => Op.Keeps.pure _) fun _ => sendTo _ _

theorem onFrame (m : Moment) (id : SessionId) (frame : Frame) :
    Op.Keeps (AllGrown d₀) (onFrame m id frame) := by
  refine Op.Keeps.bind (Op.Keeps.attempt (onKernel _)) fun r => ?_
  rcases r with e | _
  · cases e with
    | kernel e => cases e <;> first | exact Op.Keeps.pure _ | exact Op.Keeps.throw _
    | attach | vt | io => exact Op.Keeps.throw _
  · exact Op.Keeps.pure _

theorem acceptAttach (m : Moment) (idx : Nat) (id : SessionId) (generation : UInt64)
    (sessionId : Option UInt64) (protocol : UInt8) (observe : Bool) :
    Op.Keeps (AllGrown d₀) (acceptAttach m idx id generation sessionId protocol observe) := by
  refine Op.Keeps.bind (onFrame m id _) fun _ => Op.Keeps.bind Op.Keeps.get fun d => ?_
  refine Op.Keeps.ite (fun _ => ?_) fun _ => Op.Keeps.pure _
  refine Op.Keeps.bind (Op.Keeps.modify fun d h => ?_) fun _ => ?_
  · exact h.trans (modifyClient d fun c _ => .of_eq rfl rfl rfl rfl)
  refine Op.Keeps.ite (fun _ => emitCheckpoint idx id) fun _ => ?_
  exact Op.Keeps.ite (fun _ => sendHistory idx id) fun _ => Op.Keeps.pure _

theorem dispatchAttach (m : Moment) (idx : Nat) (generation : UInt64) (sessionId : Option UInt64)
    (protocol : UInt8) (observe : Bool) :
    Op.Keeps (AllGrown d₀) (dispatchAttach m idx generation sessionId protocol observe) := by
  refine Op.Keeps.bind Op.Keeps.get fun d => Op.Keeps.ite (fun _ => sendTo _ _) fun _ => ?_
  cases d.resolveAttach sessionId with
  | none => exact sendTo _ _
  | some id =>
    exact Op.Keeps.ite (fun _ => sendTo _ _) fun _ =>
      acceptAttach m idx id generation sessionId protocol observe

theorem dispatchOwn (m : Moment) (idx : Nat) (id : SessionId) (frame : Frame) :
    Op.Keeps (AllGrown d₀) (dispatchOwn m idx id frame) := by
  cases frame with
  | credit n =>
    refine Op.Keeps.bind (Op.Keeps.modify fun d h => ?_) fun _ => onFrame m id _
    exact h.trans (modifyClient d fun c _ => .of_eq rfl rfl rfl rfl)
  | _ => exact onFrame m id _

theorem drainOnce (id : SessionId) : Op.Keeps (AllGrown d₀) (drainOnce id) := by
  refine Op.Keeps.bind Op.Keeps.get fun d => Op.Keeps.ite (fun _ => ?_) fun _ => ?_
  · refine Op.Keeps.bind Op.Keeps.get fun d => Op.Keeps.ite (fun _ => ?_) fun _ => ?_
    · exact Op.Keeps.bind (onLeaf _ _ _) fun _ => Op.Keeps.pure _
    refine Op.Keeps.bind (onLeaf _ _ _) fun got => ?_
    cases got with
    | none => exact Op.Keeps.pure _
    | some bytes =>
      refine Op.Keeps.bind Op.Keeps.get fun d => Op.Keeps.bind ?_ fun _ => Op.Keeps.pure _
      refine Op.Keeps.get_bind fun d h => ?_
      exact h.trans (each (fun c => .fanout _ _ _ _) d.clients)
  · exact Op.Keeps.bind (onLeaf _ _ _) fun _ => Op.Keeps.pure _

theorem spawnTabLeaf (turns : List Turn) : Op.Keeps (AllGrown d₀) (spawnTabLeaf (.ok turns)) :=
  Op.Keeps.bind (Op.Keeps.lift _) fun _ => Op.Keeps.modify fun _ h => h

theorem resyncLeaf (id : SessionId) : Op.Keeps (AllGrown d₀) (resyncLeaf id) := by
  refine Op.Keeps.bind (onLeaf _ _ _) fun history => ?_
  cases history with
  | none => exact Op.Keeps.pure _
  | some history =>
    refine Op.Keeps.bind Op.Keeps.get fun d => Op.Keeps.ite (fun _ => Op.Keeps.pure _) fun _ => ?_
    cases d.chip.resyncFromHistory history with
    | error e => exact Op.Keeps.throw _
    | ok r =>
      refine Op.Keeps.bind (Op.Keeps.modify fun _ h => h) fun _ => ?_
      exact Op.Keeps.ite (fun _ => Op.Keeps.pure _) fun _ => onLeaf _ _ _

end

end AllGrown

/-- A frame ends its connection just where there is no leaf for it. -/
theorem dispatch_cases {d d' : Daemon} {m : Moment} {idx : Nat} {f : Frame}
    (hdispatch : (dispatchFrame m idx f).exec d = (.ok (), d')) :
    AllGrown d d' ∨
      f.isAttach = false ∧ d.leafOf idx = none ∧ (∃ c, d.clients[idx]? = some c) ∧
        d' = d.dropClient idx := by
  have hkept {p : DaemonM Unit} (hp : Op.Keeps (AllGrown d) p) (hrun : p.exec d = (.ok (), d')) :
      AllGrown d d' := by
    have hd := hp d (.refl d)
    rwa [hrun] at hd
  by_cases hattach : f.isAttach = true
  · cases f with
    | attach generation sessionId protocol observe =>
      exact .inl (hkept (AllGrown.dispatchAttach m idx generation sessionId protocol observe) hdispatch)
    | _ => cases hattach
  have hnot := eq_false_of_ne_true hattach
  rw [exec_dispatchFrame hnot] at hdispatch
  cases hleaf : d.leafOf idx with
  | none =>
    rw [hleaf] at hdispatch
    obtain rfl : d.dropClient idx = d' := (Prod.mk.inj hdispatch).2
    cases hc : d.clients[idx]? with
    | none =>
      rw [dropClient_of_none hc]
      exact .inl (.refl d)
    | some c => exact .inr ⟨hnot, rfl, ⟨c, rfl⟩, rfl⟩
  | some id =>
    rw [hleaf] at hdispatch
    dsimp only at hdispatch
    split at hdispatch
    case isTrue => exact .inl (hkept (Op.Keeps.pure ()) hdispatch)
    case isFalse => exact .inl (hkept (AllGrown.dispatchOwn m idx id f) hdispatch)

-- ---------------------------------------------------------------------------
-- The record and the bytes
-- ---------------------------------------------------------------------------

namespace Client

/-- The frames ever put in the outbox, in order and once each, are the bytes that are on the socket
or still owed. -/
structure Written (c : Client) : Prop where
  bytes : c.stream.sent ++ c.outbox = wires c.log
  fits : ∀ q ∈ c.log, q.frame.Fits

namespace Written

variable {c c' : Client}

theorem new (stream : Stream) : Written (.new stream) := ⟨rfl, nofun⟩

theorem grown (h : c.Written) (hgrown : Grown c c') : c'.Written := by
  obtain ⟨qs, hlog, hfits, hbytes⟩ := hgrown.sent
  refine ⟨?_, ?_⟩
  · rw [hbytes, h.bytes, hlog, wires, wires, wires, List.flatMap_append]
  · rw [hlog]
    exact List.forall_mem_append.mpr ⟨h.fits, hfits⟩

theorem since (h : c.Written) :
    c.stream.sent ++ c.outbox = wires (c.log.take c.attachedAt) ++ wires c.since := by
  rw [h.bytes, wires, wires, wires, ← List.flatMap_append, Client.since, List.take_append_drop]

theorem encodes (h : c.Written) : ∀ q ∈ c.since, q.frame.encode = .ok q.frame.wire :=
  fun q hq => Frame.encode_of_fits (h.fits q (List.mem_of_mem_drop hq))

theorem read (h : c.Written) (reads : List Read) (decoder : Decoder) :
    ({ c with stream := { c.stream with reads }, decoder } : Client).Written := ⟨h.bytes, h.fits⟩

end Written

end Client

def AllWritten (d : Daemon) : Prop := ∀ c ∈ d.clients, c.Written

namespace AllWritten

variable {d d' : Daemon}

theorem grown (h : AllWritten d) (hgrown : AllGrown d d') : AllWritten d' := by
  intro c' hc'
  obtain ⟨i, hi⟩ := List.mem_iff_getElem?.mp hc'
  have hpair := forall₂_getElem? hgrown i
  rw [hi] at hpair
  cases hc : d.clients[i]? with
  | none =>
    rw [hc] at hpair
    cases hpair
  | some c =>
    rw [hc] at hpair
    obtain ⟨hone⟩ := hpair
    exact (h c (List.mem_of_getElem? hc)).grown hone

theorem dropClient (h : AllWritten d) (idx : Nat) : AllWritten (d.dropClient idx) := by
  intro c hc
  rw [clients_dropClient] at hc
  exact h c (List.mem_of_mem_eraseIdx hc)

theorem fetch (h : AllWritten d) {idx : Nat} {frames : List Frame}
    (hfetch : (fetchFrames idx).exec d = (.ok frames, d')) : AllWritten d' := by
  cases hc : d.clients[idx]? with
  | none =>
    rw [fetchFrames, Op.exec_get_bind, hc] at hfetch
    obtain rfl : d = d' := (Prod.mk.inj hfetch).2
    exact h
  | some c =>
    have hwritten := h c (List.mem_of_getElem? hc)
    have hset : ∀ c', c'.Written → AllWritten (d.setClients (d.clients.set idx c')) := by
      intro c' hc' b hb
      rcases List.mem_or_eq_of_mem_set hb with hold | rfl
      · exact h b hold
      · exact hc'
    rcases fetch_cases hc hfetch with ⟨-, rfl⟩ | ⟨-, -, rfl⟩ | ⟨-, decoder, -, -, rfl⟩
    · exact h.dropClient idx
    · exact hset _ (hwritten.read _ _)
    · exact hset _ (hwritten.read _ _)

theorem flush (h : AllWritten d) (hflush : flushOutbound.exec d = (.ok (), d')) : AllWritten d' := by
  rcases flush_cases hflush with ⟨-, -, hserved⟩ | ⟨l₁, c, l₂, k₁, hsplit, -, -, -, hclients, hserved⟩
  · exact h.grown (hserved.imp fun _ _ => .of_served)
  · have hothers : AllWritten (d.setClients (l₁ ++ l₂)) := by
      intro b hb
      refine h b ?_
      rw [hsplit]
      exact List.mem_append.mpr ((List.mem_append.mp hb).imp_right (List.mem_cons_of_mem _))
    refine hothers.grown ?_
    rw [AllGrown, hclients]
    exact List.rel_append (hserved.imp fun _ _ => .of_served) (List.forall₂_same.mpr fun c _ => .refl c)

theorem takes (h : AllWritten d) {a : Act} (htakes : a.Takes d d') : AllWritten d' := by
  have hexec := htakes.2
  have hkept {m : DaemonM Unit} (hm : Op.Keeps (AllGrown d) m) (hrun : m.exec d = (.ok (), d')) :
      AllWritten d' := by
    have hd := hm d (.refl d)
    rw [hrun] at hd
    exact h.grown hd
  cases a with
  | accept stream =>
    obtain rfl : d.acceptClient stream = d' := (Prod.mk.inj hexec).2
    exact List.forall_mem_append.mpr ⟨h, List.forall_mem_singleton.mpr (.new stream)⟩
  | spawn turns => exact hkept (AllGrown.spawnTabLeaf turns) hexec
  | fetch idx =>
    obtain ⟨frames, d₁, hfetch, hpure⟩ := Op.exec_bind_eq_ok.mp hexec
    obtain rfl : d₁ = d' := (Prod.mk.inj hpure).2
    exact h.fetch hfetch
  | frame m idx f =>
    rcases dispatch_cases hexec with hgrown | ⟨-, -, -, rfl⟩
    · exact h.grown hgrown
    · exact h.dropClient idx
  | reap m id => exact hkept (AllGrown.onKernel _) hexec
  | drain id => exact hkept (Op.Keeps.bind (AllGrown.drainOnce id) fun _ => Op.Keeps.pure _) hexec
  | flush => exact h.flush hexec
  | resync id => exact hkept (AllGrown.resyncLeaf id) hexec

end AllWritten

theorem written_runs {G : Daemon → Act → Prop} {d₀ d : Daemon} (h₀ : d₀.clients = [])
    (hrun : Runs Act.Takes G d₀ d) : AllWritten d := by
  refine hrun.invariant (fun _ _ _ h _ htakes => h.takes htakes) ?_
  rw [AllWritten, h₀]
  exact List.forall_mem_nil _

end Rill.Daemon
