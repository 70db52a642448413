import Rill.Attach.Wire
import Rill.Daemon.Trace

/-!
# What a flush gives whom

The queues are emptied before anyone is served, and the first write that fails
ends the serving. `flush_served_iff` says when that costs a client whose own
write did not fail one of its frames.
-/

namespace Rill.Daemon

open Lib Attach Kernel

-- ---------------------------------------------------------------------------
-- One client
-- ---------------------------------------------------------------------------

namespace Client

/-- Sending `n` bytes runs into a write that fails. -/
def breaks : List Write → Nat → Bool
  | [], _ => false
  | write :: rest, n =>
    n ≠ 0 && match write with
      | .accept k => k ≠ 0 && breaks rest (n - k)
      | .wouldBlock => false
      | .failed => true

theorem writeLoop_breaks (writes : List Write) (outbox sent : List UInt8) :
    (writeLoop writes outbox sent).1 = !breaks writes outbox.length := by
  induction writes generalizing outbox sent with
  | nil => rfl
  | cons write rest ih =>
    unfold writeLoop breaks
    cases outbox with
    | nil => rfl
    | cons b outbox =>
      cases write with
      | accept k =>
        by_cases hk : k = 0
        · rw [hk]
          rfl
        · dsimp only
          rw [if_neg (by simp), if_neg hk, ih, List.length_drop]
          simp [hk]
      | wouldBlock => rfl
      | failed => rfl

/-- No byte is lost or made up between the outbox and the socket. -/
theorem writeLoop_bytes (writes : List Write) (outbox sent : List UInt8) :
    (writeLoop writes outbox sent).2.2.2 ++ (writeLoop writes outbox sent).2.2.1 = sent ++ outbox := by
  induction writes generalizing outbox sent with
  | nil => rfl
  | cons write rest ih =>
    unfold writeLoop
    cases outbox with
    | nil => rfl
    | cons b outbox =>
      cases write with
      | accept k =>
        by_cases hk : k = 0
        · rw [hk]
          rfl
        · dsimp only
          rw [if_neg (by simp), if_neg hk, ih, List.append_assoc, List.take_append_drop]
      | wouldBlock => rfl
      | failed => rfl

theorem writeLoop_grows (writes : List Write) (outbox sent : List UInt8) :
    sent <+: (writeLoop writes outbox sent).2.2.2 := by
  induction writes generalizing outbox sent with
  | nil => exact List.prefix_refl _
  | cons write rest ih =>
    unfold writeLoop
    split
    case isTrue => exact List.prefix_refl _
    case isFalse =>
      cases write with
      | accept n =>
        dsimp only
        split
        case isTrue => exact List.prefix_refl _
        case isFalse => exact (List.prefix_append _ _).trans (ih _ _)
      | wouldBlock | failed => exact List.prefix_refl _

def wires (qs : List Queued) : List UInt8 := qs.flatMap fun q => q.frame.wire

/-- `c'` is `c` in the role it had, given `qs`, in order and once each: on record,
and as bytes that are still owed or already on the socket. -/
structure Gets (c c' : Client) (qs : List Queued) : Prop extends c.Sent c' qs where
  bytes : c'.stream.sent ++ c'.outbox = c.stream.sent ++ c.outbox ++ wires qs

theorem gets_self_iff {c : Client} {qs : List Queued} : c.Gets c qs ↔ qs = [] := by
  constructor
  · exact fun h => List.append_cancel_left (h.log.symm.trans (List.append_nil _).symm)
  · rintro rfl
    exact { Sent.refl c with bytes := (List.append_nil _).symm }

theorem exec_forM_send {qs : List Queued} (h : ∀ q ∈ qs, q.frame.Fits) (c : Client) :
    (qs.forM send).exec c =
      (.ok (), { c with outbox := c.outbox ++ wires qs, log := c.log ++ qs }) := by
  induction qs generalizing c with
  | nil => simp [wires]
  | cons q qs ih =>
    obtain ⟨hq, hqs⟩ := List.forall_mem_cons.mp h
    have hsend : (send q).exec c = (.ok (), c.push q q.frame.wire) := by
      rw [exec_send, Frame.encode_of_fits hq]
    rw [Op.forM_cons, Op.exec_bind_ok hsend, ih hqs]
    simp [push, wires]

/-- A frame that does not encode ends the sending before all of it is in the outbox. -/
theorem exec_forM_send_unfit {qs : List Queued} (h : ¬ ∀ q ∈ qs, q.frame.Fits) (c : Client) :
    ∃ e c', (qs.forM send).exec c = (.error e, c') ∧ c'.log.length < c.log.length + qs.length := by
  induction qs generalizing c with
  | nil => exact absurd (fun q hq => absurd hq List.not_mem_nil) h
  | cons q qs ih =>
    by_cases hq : q.frame.Fits
    · have hsend : (send q).exec c = (.ok (), c.push q q.frame.wire) := by
        rw [exec_send, Frame.encode_of_fits hq]
      have hqs : ¬ ∀ q ∈ qs, q.frame.Fits := fun hqs => h (List.forall_mem_cons.mpr ⟨hq, hqs⟩)
      obtain ⟨e, c', hrun, hlen⟩ := ih hqs (c.push q q.frame.wire)
      refine ⟨e, c', by rw [Op.forM_cons, Op.exec_bind_ok hsend, hrun], ?_⟩
      simp only [push, List.length_append, List.length_cons, List.length_nil] at hlen ⊢
      omega
    · have hsend : (send q).exec c = (.error (.tooLarge q.frame.payload.length), c) := by
        rw [exec_send, Frame.encode_of_not_fits hq]
      exact ⟨_, c, by rw [Op.forM_cons, Op.exec_bind_error hsend], by simp⟩

/-- The write that a client's own socket answers with an error. -/
def fails (c : Client) (qs : List Queued) : Bool :=
  qs.all (fun q => q.frame.Fits) && breaks c.stream.writes (c.outbox ++ wires qs).length

/-- A client is given all that is due, or its write fails, or a frame does not encode. -/
theorem serve_cases (frames : List Queued) (c : Client) :
    ((∀ q ∈ c.due frames, q.frame.Fits) ∧ c.fails (c.due frames) = false ∧
        ∃ c', (serve frames).exec c = (.ok (), c') ∧ c.Gets c' (c.due frames)) ∨
      ((∀ q ∈ c.due frames, q.frame.Fits) ∧ c.fails (c.due frames) = true ∧
        ∃ c', (serve frames).exec c = (.error .write, c')) ∨
      ((¬ ∀ q ∈ c.due frames, q.frame.Fits) ∧ c.fails (c.due frames) = false ∧
        ∃ e c', (serve frames).exec c = (.error (.encode e), c') ∧
          ¬ c.Gets c' (c.due frames)) := by
  rw [serve, Op.exec_get_bind]
  generalize c.due frames = qs
  by_cases hfit : ∀ q ∈ qs, q.frame.Fits
  · have hsend : (Op.mapError Stop.encode (qs.forM send)).exec c =
        (.ok (), { c with outbox := c.outbox ++ wires qs, log := c.log ++ qs }) := by
      rw [Op.exec_mapError, exec_forM_send hfit]
      rfl
    have hall : qs.all (fun q => q.frame.Fits) = true := by simpa using hfit
    rw [Op.exec_bind_ok hsend, writeOutbox, Op.exec_get_bind, fails, hall, Bool.true_and]
    have hbreaks := writeLoop_breaks c.stream.writes (c.outbox ++ wires qs) c.stream.sent
    have hbytes := writeLoop_bytes c.stream.writes (c.outbox ++ wires qs) c.stream.sent
    dsimp only
    generalize writeLoop c.stream.writes (c.outbox ++ wires qs) c.stream.sent = run at hbreaks hbytes ⊢
    obtain ⟨ok, writes, outbox, sent⟩ := run
    obtain rfl : ok = _ := hbreaks
    rw [Op.exec_modify_bind]
    cases hfails : breaks c.stream.writes (c.outbox ++ wires qs).length with
    | false =>
      refine .inl ⟨hfit, rfl, _, rfl, ⟨rfl, rfl, rfl, rfl, rfl, rfl, rfl, rfl⟩, ?_⟩
      rw [List.append_assoc]
      exact hbytes
    | true => exact .inr (.inl ⟨hfit, rfl, _, rfl⟩)
  · obtain ⟨e, c', hrun, hlen⟩ := exec_forM_send_unfit hfit c
    have hsend : (Op.mapError Stop.encode (qs.forM send)).exec c = (.error (.encode e), c') := by
      rw [Op.exec_mapError, hrun]
      rfl
    refine .inr (.inr ⟨hfit, ?_, e, c', Op.exec_bind_error hsend _, fun hgets => ?_⟩)
    · have hall : qs.all (fun q => q.frame.Fits) = false := by simpa using hfit
      rw [fails, hall, Bool.false_and]
    · rw [hgets.log, List.length_append] at hlen
      omega

end Client

-- ---------------------------------------------------------------------------
-- All of them
-- ---------------------------------------------------------------------------

def owed (d : Daemon) (c : Client) : List Queued := c.due (queued d c.leaf)

/-- The client's own write would fail. -/
def failing (d : Daemon) (c : Client) : Bool := c.fails (owed d c)

theorem failing_of_stop {d : Daemon} {c : Client}
    (h : ((Client.serve (queued d c.leaf)).exec c).1 = .error .write) : failing d c = true := by
  rcases Client.serve_cases (queued d c.leaf) c with ⟨-, -, c', hrun, -⟩ | ⟨-, hfails, -⟩ |
    ⟨-, -, e, c', hrun, -⟩
  · rw [hrun] at h
    cases h
  · exact hfails
  · rw [hrun] at h
    cases h

/-- What holds behind every client whose write would fail holds behind the one that a flush stops at. -/
theorem behind_stop {d : Daemon} {P : Client → Prop}
    (h : ∀ i < d.clients.length, ∀ x ∈ d.clients[i]?, failing d x = true →
      ∀ c ∈ d.clients.drop (i + 1), P c)
    {l₁ l₂ : List Client} {x c : Client} (hclients : d.clients = l₁ ++ x :: l₂)
    (hstop : ((Client.serve (queued d x.leaf)).exec x).1 = .error .write) (hbehind : c ∈ l₂) : P c := by
  have hlt : l₁.length < d.clients.length := by simp [hclients]
  have hx : d.clients[l₁.length]? = some x := by simp [hclients]
  refine h l₁.length hlt x hx (failing_of_stop hstop) c ?_
  rw [hclients, ← List.drop_drop, List.drop_left]
  exact hbehind

/-- Everyone but the first whose own write fails; no write is made after that one. -/
def spared (d : Daemon) : List Client :=
  match d.clients.findIdx? (failing d) with
  | none => d.clients
  | some idx => d.clients.eraseIdx idx

/-- Each of them has been given what was due, and is where it was among them. -/
def AllServed (d d' : Daemon) : Prop :=
  List.Forall₂ (fun c c' => c.Gets c' (owed d c)) (spared d) d'.clients

/-- What is due can be encoded, and nothing is due behind a client whose write fails. -/
def NoneBehind (d : Daemon) : Prop :=
  (∀ c ∈ d.clients, ∀ q ∈ owed d c, q.frame.Fits) ∧
    ∀ l₁ c l₂, d.clients = l₁ ++ c :: l₂ → failing d c = true → ∀ c' ∈ l₂, owed d c' = []

abbrev serving (d : Daemon) : Op Client Client.Stop Unit := do
  Client.serve (queued d (← get).leaf)

theorem exec_serving (d : Daemon) (c : Client) :
    (serving d).exec c = (Client.serve (queued d c.leaf)).exec c := Op.exec_get_bind _ c

theorem clients_flushOutbound_ok {d : Daemon}
    (h : ∀ c ∈ d.clients, ((serving d).exec c).1 = .ok ()) :
    (flushOutbound.exec d).2.clients = d.clients.map fun c => ((serving d).exec c).2 := by
  rw [flushOutbound, Op.exec_get_bind, Op.exec_modify_bind, Op.each_ok h]
  rfl

theorem clients_flushOutbound_write {d : Daemon} {l₁ l₂ : List Client} {c c' : Client}
    (hsplit : d.clients = l₁ ++ c :: l₂) (h : ∀ c ∈ l₁, ((serving d).exec c).1 = .ok ())
    (hc : (serving d).exec c = (.error .write, c')) :
    (flushOutbound.exec d).2.clients = (l₁.map fun c => ((serving d).exec c).2) ++ l₂ := by
  rw [flushOutbound, Op.exec_get_bind, Op.exec_modify_bind, hsplit, Op.each_error h hc]
  dsimp only
  rw [Op.exec_modify_bind]
  have herase := eraseIdx_split (l₁.map fun c => ((serving d).exec c).2) l₂ c'
  rw [List.length_map] at herase
  exact (clients_dropClient _ _).trans herase

theorem clients_flushOutbound_encode {d : Daemon} {l₁ l₂ : List Client} {c c' : Client}
    {e : Attach.Error} (hsplit : d.clients = l₁ ++ c :: l₂)
    (h : ∀ c ∈ l₁, ((serving d).exec c).1 = .ok ())
    (hc : (serving d).exec c = (.error (.encode e), c')) :
    (flushOutbound.exec d).2.clients = (l₁.map fun c => ((serving d).exec c).2) ++ c' :: l₂ := by
  rw [flushOutbound, Op.exec_get_bind, Op.exec_modify_bind, hsplit, Op.each_error h hc]
  rfl

theorem serving_ok {d : Daemon} {c : Client} (h : ((serving d).exec c).1 = .ok ()) :
    (∀ q ∈ owed d c, q.frame.Fits) ∧ failing d c = false ∧
      c.Gets ((serving d).exec c).2 (owed d c) := by
  rw [exec_serving] at h ⊢
  rcases Client.serve_cases (queued d c.leaf) c with ⟨hfit, hfails, c', hrun, hgets⟩ |
    ⟨-, -, c', hrun⟩ | ⟨-, -, e, c', hrun, -⟩
  · rw [hrun]
    exact ⟨hfit, hfails, hgets⟩
  · rw [hrun] at h
    cases h
  · rw [hrun] at h
    cases h

theorem forall₂_gets {d : Daemon} {l : List Client} (h : ∀ c ∈ l, ((serving d).exec c).1 = .ok ()) :
    List.Forall₂ (fun c c' => c.Gets c' (owed d c)) l (l.map fun c => ((serving d).exec c).2) := by
  rw [List.forall₂_map_right_iff, List.forall₂_same]
  exact fun c hc => (serving_ok (h c hc)).2.2

theorem findIdx?_served {d : Daemon} {l : List Client}
    (h : ∀ c ∈ l, ((serving d).exec c).1 = .ok ()) : l.findIdx? (failing d) = none :=
  List.findIdx?_eq_none_iff.mpr fun c hc => (serving_ok (h c hc)).2.1

theorem spared_of_failing {d : Daemon} {l₁ l₂ : List Client} {c : Client}
    (hsplit : d.clients = l₁ ++ c :: l₂) (h : ∀ c ∈ l₁, ((serving d).exec c).1 = .ok ())
    (hc : failing d c = true) : spared d = l₁ ++ l₂ := by
  rw [spared, hsplit, List.findIdx?_append, findIdx?_served h, List.findIdx?_cons, hc]
  simp

/-- With a frame that does not encode, somebody is not served. -/
theorem not_allServed_encode {d d' : Daemon} {l₁ l₂ l₁' : List Client} {c c' : Client}
    (hsplit : d.clients = l₁ ++ c :: l₂) (hclients : d'.clients = l₁' ++ c' :: l₂)
    (hlen : l₁.length = l₁'.length) (hc : ¬ c.Gets c' (owed d c)) : ¬ AllServed d d' := by
  intro h
  rw [AllServed, spared] at h
  split at h
  case h_1 =>
    rw [hsplit, hclients, forall₂_append_iff hlen, List.forall₂_cons] at h
    exact hc h.2.1
  case h_2 idx hidx =>
    have hlt := (List.findIdx?_eq_some_iff_getElem.mp hidx).1
    have hlength := h.length_eq
    rw [List.length_eraseIdx, if_pos hlt, hsplit, hclients] at hlength
    simp only [List.length_append, List.length_cons, hlen] at hlength
    omega

/-- A flush costs nobody but the client whose own write fails a frame, if and only if
nothing is due behind such a client and all that is due can be encoded. -/
theorem flush_served_iff (d : Daemon) : AllServed d (flushOutbound.exec d).2 ↔ NoneBehind d := by
  rcases Op.each_split (serving d) d.clients with hall | ⟨l₁, c, l₂, e, c', hsplit, hall, hc⟩
  · have hnone := findIdx?_served hall
    rw [AllServed, spared, hnone, clients_flushOutbound_ok hall]
    refine ⟨fun _ => ⟨fun c hc => (serving_ok (hall c hc)).1, fun l₁ c l₂ hsplit hfails => ?_⟩,
      fun _ => forall₂_gets hall⟩
    have hserved := (serving_ok (hall c (by simp [hsplit]))).2.1
    rw [hfails] at hserved
    cases hserved
  · have hcases := Client.serve_cases (queued d c.leaf) c
    rw [← exec_serving, hc] at hcases
    rcases hcases with ⟨-, -, _, hrun, -⟩ | ⟨hfit, hfails, _, hrun⟩ | ⟨hfit, -, e', c'', hrun, hgets⟩
    · cases hrun
    · -- the write of `c` fails, and those behind it are as they were
      obtain rfl : e = .write := Except.error.inj (Prod.mk.inj hrun).1
      have hlen : l₁.length = (l₁.map fun c => ((serving d).exec c).2).length := by simp
      rw [AllServed, spared_of_failing hsplit hall hfails, clients_flushOutbound_write hsplit hall hc,
        forall₂_append_iff hlen, List.forall₂_same]
      constructor
      · rintro ⟨-, hlast⟩
        have howed : ∀ c' ∈ l₂, owed d c' = [] := fun c' hmem => Client.gets_self_iff.mp (hlast c' hmem)
        refine ⟨fun c' hmem => ?_, fun k₁ b k₂ hsplit' hb c' hmem => ?_⟩
        · rw [hsplit, List.mem_append, List.mem_cons] at hmem
          rcases hmem with hmem | rfl | hmem
          · exact (serving_ok (hall c' hmem)).1
          · exact hfit
          · rw [howed c' hmem]
            exact fun q hq => absurd hq List.not_mem_nil
        · refine howed c' (mem_behind (hsplit.symm.trans hsplit') (fun hmem' => ?_) c' hmem)
          have hserved := (serving_ok (hall b hmem')).2.1
          rw [hb] at hserved
          cases hserved
      · rintro ⟨-, hbehind⟩
        exact ⟨forall₂_gets hall, fun c' hmem =>
          Client.gets_self_iff.mpr (hbehind l₁ c l₂ hsplit hfails c' hmem)⟩
    · obtain rfl : e = .encode e' := Except.error.inj (Prod.mk.inj hrun).1
      obtain rfl : c' = c'' := (Prod.mk.inj hrun).2
      have hclients := clients_flushOutbound_encode hsplit hall hc
      refine ⟨fun h => absurd h (not_allServed_encode hsplit hclients (by simp) hgets), fun h => ?_⟩
      exact absurd (h.1 c (by simp [hsplit])) hfit

theorem allServed_logs {d d' : Daemon} (h : AllServed d d') :
    (spared d).map (fun c => c.log ++ owed d c) = d'.clients.map Client.log := by
  unfold AllServed at h
  generalize spared d = l at h ⊢
  generalize d'.clients = l' at h ⊢
  induction h with
  | nil => rfl
  | cons hgets _ ih => rw [List.map_cons, List.map_cons, hgets.log, ih]

/-- The writer's socket fails, and the observer behind it never sees the repaint. -/
theorem repaint_lost :
    ∃ d, after [] ⟨1, 1, 0, 0⟩ false
        [{ Poll.quiet with
            accept := .ok (some (.of [.attach 1 none protocolVersion false] [] [.failed])) },
          { Poll.quiet with
            accept := .ok (some (.of [.attach 2 none protocolVersion true] [] [])) },
          { Poll.quiet with ready := fun _ => true }] = .ok d ∧
      ¬ AllServed d (flushOutbound.exec d).2 := by
  refine exists_after (p := fun d => (spared d).map (fun c => c.log ++ owed d c) ≠
    (flushOutbound.exec d).2.clients.map Client.log) (by decide +kernel) fun d hlost => ?_
  exact fun hserved => of_decide_eq_true hlost (allServed_logs hserved)

end Rill.Daemon
