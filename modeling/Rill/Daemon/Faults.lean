import Rill.Daemon.Tail
import Rill.Kernel.Faults

/-!
# One leaf's failing PTY

The daemon with the failures taken out of one leaf's script. A step of the daemon
is a step of that one, unless a call on the leaf's PTY fails: then the step fails,
for every leaf and every client.
-/

namespace Rill.Daemon

open Lib Attach Kernel Vt

def heal (i : SessionId) (d : Daemon) : Daemon := d.setKernel (d.kernel.heal i)

def repair (i : SessionId) (T : List Turn) : Repair Daemon where
  fix := heal i
  sound d := (Kernel.repair i T).sound d.kernel
  struck d := (Kernel.repair i T).struck d.kernel

/-- A failure of a leaf's that the daemon does not absorb. -/
def Fails (e : Error) : Prop := ∃ k, e = .kernel k ∧ Fatal k

/-- A failing call on leaf `i`, whose script is `T`, is all that sets `m` apart. -/
abbrev Follows (i : SessionId) (T : List Turn) (m : DaemonM α) : Prop := (repair i T).Follows Fails m

variable {i : SessionId} {T : List Turn}

-- ---------------------------------------------------------------------------
-- What the daemon knows of a leaf
-- ---------------------------------------------------------------------------

theorem session_fix (d : Daemon) (id : SessionId) :
    ((repair i T).fix d).session id = (d.session id).map fun s => if id = i then s.heal else s :=
  session_heal d.kernel id

/-- A leaf that is there stays so, with the same session or a healed one. -/
theorem session_fix_cases (T : List Turn) (d : Daemon) (i id : SessionId) :
    (d.session id = none ∧ ((repair i T).fix d).session id = none) ∨
      ∃ s t, d.session id = some s ∧ ((repair i T).fix d).session id = some t ∧
        (t = s ∨ t = s.heal) := by
  rw [session_fix]
  cases d.session id with
  | none => exact .inl ⟨rfl, rfl⟩
  | some s =>
    refine .inr ⟨s, _, rfl, rfl, ?_⟩
    split
    · exact .inr rfl
    · exact .inl rfl

theorem ids_fix (d : Daemon) : ((repair i T).fix d).kernel.ids = d.kernel.ids := ids_heal d.kernel

theorem attached_fix (d : Daemon) (id : SessionId) :
    ((repair i T).fix d).attached id = d.attached id := attached_heal d.kernel id

theorem taken_fix (d : Daemon) (id : SessionId) : taken ((repair i T).fix d) id = taken d id :=
  congrArg (·.getD 0)
    (map_session_heal (f := fun s => s.pty.taken.length) (fun _ => rfl) d.kernel id)

theorem bytesDelivered_fix (d : Daemon) (id : SessionId) :
    bytesDelivered ((repair i T).fix d) id = bytesDelivered d id :=
  congrArg (·.getD 0) (map_session_heal (f := Session.bytesDelivered) (fun _ => rfl) d.kernel id)

theorem queued_fix (d : Daemon) (leaf : Option SessionId) :
    queued ((repair i T).fix d) leaf = queued d leaf := by
  cases leaf with
  | none => rfl
  | some id =>
    exact congrArg (·.getD []) (map_session_heal (f := Session.outbound) (fun _ => rfl) d.kernel id)

theorem childAlive_fix (d : Daemon) (id : SessionId) :
    childAlive ((repair i T).fix d) id = childAlive d id := by
  unfold childAlive
  obtain ⟨h, h'⟩ | ⟨s, t, h, h', rfl | rfl⟩ := session_fix_cases T d i id
  · rw [h, h']
  · rw [h, h']
  · rw [h, h']
    rfl

theorem resolveAttach_fix (d : Daemon) (sessionId : Option UInt64) :
    ((repair i T).fix d).resolveAttach sessionId = d.resolveAttach sessionId := by
  cases sessionId with
  | none => rfl
  | some raw =>
    unfold resolveAttach
    dsimp only
    rw [session_fix, Option.isSome_map]

-- ---------------------------------------------------------------------------
-- Calls on one leaf and on one client
-- ---------------------------------------------------------------------------

theorem follows_onKernel {m : Op Kernel Kernel.Error α} (hm : Kernel.Follows i T m) :
    Follows i T (onKernel m) :=
  .mapError (.on {
    get_fix := fun _ => rfl
    put_fix := fun _ _ => rfl
    sound := fun _ h => h
    struck := fun _ h => h
    put_sound := fun _ _ _ h => h
    put_struck := fun _ _ _ h => h
    strikes := fun _ _ _ h => h } hm) fun e he => ⟨e, rfl, he⟩

theorem follows_modify {f : Daemon → Daemon} (hf : ∀ d, (f d).kernel = d.kernel)
    (hfix : ∀ d, f ((repair i T).fix d) = (repair i T).fix (f d)) : Follows i T (modify f) := by
  refine .modify (fun d hd => ?_) (fun d hd => ?_) fun d _ => hfix d
  · change (Kernel.repair i T).struck (f d).kernel
    rwa [hf]
  · change (Kernel.repair i T).sound (f d).kernel
    rwa [hf]

theorem follows_onLeaf {id : SessionId} {missing : α} {m : Op Session Kernel.Error α}
    (hm : Session.Follows T m) : Follows i T (onLeaf id missing m) := by
  refine .get_bind (fun d _ => ?_) fun d => ?_
  · obtain ⟨h, h'⟩ | ⟨s, t, h, h', -⟩ := session_fix_cases T d i id
    · rw [h, h']
    · rw [h, h']
  · cases d.session id with
    | none => exact .pure _
    | some _ => exact follows_onKernel (follows_onSession hm)

theorem follows_onClient (idx : Nat) (m : Op Client Attach.Error Unit) :
    Follows i T (onClient idx m) := by
  refine .get_bind (fun _ _ => rfl) fun d => ?_
  cases d.clients[idx]? with
  | none => exact .pure _
  | some c =>
    refine .bind (follows_modify (fun _ => rfl) fun _ => rfl) fun _ => ?_
    exact .mapError_lift _ _

theorem follows_sendTo (idx : Nat) (q : Queued) : Follows i T (sendTo idx q) := follows_onClient idx _

/-- A dead child is absorbed; nothing that a PTY answers is. -/
theorem follows_onFrame (m : Moment) (id : SessionId) (frame : Frame) :
    Follows i T (onFrame m id frame) := by
  refine .attempt_bind (follows_onKernel (Kernel.follows_onFrame m id frame)) (fun a => ?_) ?_
  · split
    · exact .pure _
    · exact .pure _
    · exact .throw _
  · rintro _ d ⟨k, rfl, hk⟩
    cases k with
    | dead => exact absurd rfl hk
    | _ => exact ⟨_, rfl, _, rfl, hk⟩

-- ---------------------------------------------------------------------------
-- Inbound frames
-- ---------------------------------------------------------------------------

theorem follows_setChipOr (r : Except Vt.Error VtEngine) : Follows i T (setChipOr r) := by
  cases r with
  | ok chip => exact follows_modify (fun _ => rfl) fun _ => rfl
  | error e => exact .throw _

theorem follows_emitCheckpoint (idx : Nat) (id : SessionId) : Follows i T (emitCheckpoint idx id) := by
  refine .get_bind (fun d _ => ?_) fun d => ?_
  · obtain ⟨h, h'⟩ | ⟨s, t, h, h', rfl | rfl⟩ := session_fix_cases T d i id
    · rw [h, h']
    · rw [h, h']
    · rw [h, h']
      rfl
  · cases d.session id with
    | none => exact .pure _
    | some s =>
      refine .get_bind (fun _ _ => rfl) fun d => .bind (follows_setChipOr _) fun _ => ?_
      refine .get_bind (fun _ _ => rfl) fun d => ?_
      exact .bind (follows_modify (fun _ => rfl) fun _ => rfl) fun _ => follows_sendTo idx _

theorem follows_sendHistory (idx : Nat) (id : SessionId) : Follows i T (sendHistory idx id) := by
  refine .get_bind (fun d _ => ?_) fun d => ?_
  · obtain ⟨h, h'⟩ | ⟨s, t, h, h', rfl | rfl⟩ := session_fix_cases T d i id
    · rw [h, h']
    · rw [h, h']
    · rw [h, h']
      rfl
  · cases d.session id with
    | none => exact .pure _
    | some s => exact .ite (.pure _) (follows_sendTo idx _)

theorem follows_acceptAttach (m : Moment) (idx : Nat) (id : SessionId) (generation : UInt64)
    (sessionId : Option UInt64) (protocol : UInt8) (observe : Bool) :
    Follows i T (acceptAttach m idx id generation sessionId protocol observe) := by
  refine .bind (follows_onFrame m id _) fun _ => .get_bind (fun d _ => by rw [attached_fix]) fun d => ?_
  refine .ite (.bind (follows_modify (fun _ => rfl) fun d => ?_) fun _ => ?_) (.pure _)
  · rw [taken_fix]
    rfl
  · exact .ite (follows_emitCheckpoint idx id) (.ite (follows_sendHistory idx id) (.pure _))

theorem follows_dispatchAttach (m : Moment) (idx : Nat) (generation : UInt64)
    (sessionId : Option UInt64) (protocol : UInt8) (observe : Bool) :
    Follows i T (dispatchAttach m idx generation sessionId protocol observe) := by
  refine .get_bind (fun d _ => ?_) fun d => .ite (follows_sendTo idx _) ?_
  · have hleafOf : ((repair i T).fix d).leafOf idx = d.leafOf idx := rfl
    simp only [resolveAttach_fix, attached_fix, hleafOf]
  · cases d.resolveAttach sessionId with
    | none => exact follows_sendTo idx _
    | some id => exact .ite (follows_sendTo idx _) (follows_acceptAttach m idx id _ _ _ _)

theorem follows_dispatchOwn (m : Moment) (idx : Nat) (id : SessionId) (frame : Frame) :
    Follows i T (dispatchOwn m idx id frame) := by
  cases frame with
  | credit n =>
    exact .bind (follows_modify (fun _ => rfl) fun _ => rfl) fun _ => follows_onFrame m id _
  | attach | data | resize | exit | refused | checkpoint | delta | resyncRequest =>
    exact follows_onFrame m id _

theorem released {P : Pty → Prop} {s : Session} (h : s.ephemeral = false ∧ P s.pty) (observe : Bool) :
    (releaseRole observe s).ephemeral = false ∧ P (releaseRole observe s).pty := by
  obtain ⟨hpty, hephemeral⟩ := releaseRole_pty h.1 observe
  rw [hpty, hephemeral]
  exact h

theorem releaseRole_heal {s : Session} (h : s.ephemeral = false) (observe : Bool) :
    releaseRole observe s.heal = (releaseRole observe s).heal := by
  cases observe with
  | true => rfl
  | false =>
    have hephemeral : s.heal.ephemeral = false := h
    change s.heal.detach = s.detach.heal
    unfold Session.detach
    rw [h, hephemeral]
    rfl

theorem dropClient_fix {d : Daemon} (h : (repair i T).sound d) (idx : Nat) :
    ((repair i T).fix d).dropClient idx = (repair i T).fix (d.dropClient idx) := by
  have hclients : ((repair i T).fix d).clients = d.clients := rfl
  unfold dropClient
  rw [hclients]
  cases d.clients[idx]? with
  | none => rfl
  | some c =>
    dsimp only
    cases c.leaf with
    | none => rfl
    | some id =>
      dsimp only
      rw [session_fix]
      cases hs : d.session id with
      | none => rfl
      | some s =>
        have hrelease : releaseRole c.observe (if id = i then s.heal else s) =
            if id = i then (releaseRole c.observe s).heal else releaseRole c.observe s := by
          split
          case isTrue hid => exact releaseRole_heal (leaf_session h hs hid).1 c.observe
          case isFalse => rfl
        have hset := setSession_heal (i := i) d.kernel id (releaseRole c.observe s)
        dsimp only [Option.map_some]
        rw [hrelease]
        change ((d.setKernel ((d.kernel.heal i).setSession id _)).setClients _) = _
        rw [hset]
        rfl

theorem leaf_dropClient {P : Pty → Prop} {d : Daemon}
    (h : ∃ s, d.session i = some s ∧ s.ephemeral = false ∧ P s.pty) (idx : Nat) :
    ∃ s, (d.dropClient idx).session i = some s ∧ s.ephemeral = false ∧ P s.pty := by
  unfold dropClient
  cases d.clients[idx]? with
  | none => exact h
  | some c =>
    dsimp only
    cases c.leaf with
    | none => exact h
    | some id =>
      dsimp only
      cases hs : d.session id with
      | none => exact h
      | some s =>
        exact leaf_setSession (P := fun s => s.ephemeral = false ∧ P s.pty) h hs fun hid =>
          released (leaf_session (P := fun s => s.ephemeral = false ∧ P s.pty) h hs hid) c.observe

theorem follows_dropClient (idx : Nat) : Follows i T (modify fun d => d.dropClient idx) :=
  .modify (fun _ h => leaf_dropClient h idx) (fun _ h => leaf_dropClient h idx)
    fun _ h => dropClient_fix h idx

theorem follows_dispatchFrame (m : Moment) (idx : Nat) (frame : Frame) :
    Follows i T (dispatchFrame m idx frame) := by
  cases frame with
  | attach generation sessionId protocol observe =>
    exact follows_dispatchAttach m idx generation sessionId protocol observe
  | data | credit | resize | exit | refused | checkpoint | delta | resyncRequest =>
    refine .get_bind (fun _ _ => rfl) fun d => ?_
    cases d.leafOf idx with
    | none => exact follows_dropClient idx
    | some id => exact .ite (.pure _) (follows_dispatchOwn m idx id _)

theorem follows_fetchFrames (idx : Nat) : Follows i T (fetchFrames idx) := by
  have hdrop : Follows i T (do modify fun d => d.dropClient idx; pure ([] : List Frame)) :=
    .bind (follows_dropClient idx) fun _ => .pure _
  refine .get_bind (fun _ _ => rfl) fun d => ?_
  cases d.clients[idx]? with
  | none => exact .pure _
  | some c =>
    dsimp only
    generalize c.read socketBuf = r
    obtain ⟨read, c'⟩ := r
    cases read with
    | wouldBlock => exact .bind (follows_modify (fun _ => rfl) fun _ => rfl) fun _ => .pure _
    | eof => exact hdrop
    | failed => exact hdrop
    | data bytes =>
      dsimp only
      cases c'.decoder.push bytes with
      | error e => exact hdrop
      | ok r =>
        exact .bind (follows_modify (fun _ => rfl) fun _ => rfl) fun _ => .pure _

theorem follows_readClient (clock : Nat → Moment) (idx : Nat) : Follows i T (readClient clock idx) :=
  .bind (follows_fetchFrames idx) fun _ => .forM (fun _ => follows_dispatchFrame _ idx _) _

-- ---------------------------------------------------------------------------
-- Output of the leaves
-- ---------------------------------------------------------------------------

theorem follows_eachClient (m : Op Client Attach.Error Unit) : Follows i T (eachClient m) := by
  refine .get_bind (fun _ _ => rfl) fun d => ?_
  exact .bind (follows_modify (fun _ => rfl) fun _ => rfl) fun _ => .lift _

theorem follows_drainToClients (id : SessionId) : Follows i T (drainToClients id) := by
  refine .get_bind (fun _ _ => rfl) fun d => .ite ?_ ?_
  · refine .bind (follows_onLeaf ?_) fun _ => .pure _
    exact Session.follows_modify (fun _ => rfl) (fun _ => rfl) fun _ => rfl
  · refine .bind (follows_onLeaf (Session.follows_drainPtyAtMost _)) fun got => ?_
    cases got with
    | none => exact .pure _
    | some bytes =>
      refine .get_bind (fun d _ => by rw [bytesDelivered_fix, taken_fix]) fun d => ?_
      exact .bind (follows_eachClient _) fun _ => .pure _

theorem follows_drainToQueue (id : SessionId) : Follows i T (drainToQueue id) := by
  refine .bind (follows_onLeaf ?_) fun _ => .pure _
  exact .get_bind (fun _ _ => rfl) fun s => .ite Session.follows_onPtyReadable (.pure _)

theorem follows_drainOnce (id : SessionId) : Follows i T (drainOnce id) :=
  .get_bind (fun _ _ => rfl) fun _ => .ite (follows_drainToClients id) (follows_drainToQueue id)

theorem follows_drainLoop (turns : Nat) (id : SessionId) : Follows i T (drainLoop turns id) := by
  induction turns with
  | zero => exact .pure _
  | succ turns ih => exact .bind (follows_drainOnce id) fun _ => .ite ih (.pure _)

theorem follows_drainLeaf (id : SessionId) : Follows i T (drainLeaf id) := by
  refine .get_bind (fun d _ => ?_) fun d => ?_
  · obtain ⟨h, h'⟩ | ⟨s, t, h, h', rfl | rfl⟩ := session_fix_cases T d i id
    · rw [h, h']
    · rw [h, h']
    · rw [h, h']
      dsimp only [Session.heal]
      rw [Pty.backlog_heal]
  · cases d.session id with
    | none => exact .pure _
    | some s => exact follows_drainLoop _ id

-- ---------------------------------------------------------------------------
-- Poll
-- ---------------------------------------------------------------------------

theorem leaf_spawnLeaf {P : Session → Prop} {k : Kernel} (h : ∃ s, k.session i = some s ∧ P s)
    (s : Session) : ∃ t, (k.spawnLeaf s).2.session i = some t ∧ P t := by
  obtain ⟨t, ht, hP⟩ := h
  obtain hsame | ⟨id, hid, hnew⟩ := session_spawnLeaf k s
  · exact ⟨t, by rw [hsame, ht], hP⟩
  · have hne : i ≠ id := by
      rintro rfl
      rw [hid] at ht
      cases ht
    exact ⟨t, by rw [hnew, Function.update_of_ne hne, ht], hP⟩

theorem follows_spawnTabLeaf (spawned : Except Kernel.Error (List Turn)) :
    Follows i T (spawnTabLeaf spawned) := by
  refine .bind (.mapError_lift _ _) fun turns => ?_
  refine .modify (fun _ h => leaf_spawnLeaf h _) (fun _ h => leaf_spawnLeaf h _) fun d h => ?_
  obtain ⟨s, hs, -⟩ := h
  have hi : (d.kernel.session i).isSome := by rw [hs]; rfl
  exact congrArg d.setKernel (spawnLeaf_heal hi _)

theorem follows_acceptOne (accept : Except Unit (Option Stream)) : Follows i T (acceptOne accept) := by
  match accept with
  | .error () => exact .throw _
  | .ok none => exact .pure _
  | .ok (some stream) => exact follows_modify (fun _ => rfl) fun _ => rfl

theorem follows_pollIo (p : Poll) : Follows i T (pollIo p) := by
  refine .get_bind (fun d _ => ?_) fun d => .guard ?_
  · have hclients : ((repair i T).fix d).clients = d.clients := rfl
    simp only [ids_fix, childAlive_fix, hclients]
  · refine .bind (follows_acceptOne p.accept) fun _ => .guard ?_
    refine .bind (.forM follows_spawnTabLeaf _) fun _ => ?_
    refine .bind (.forM (fun idx => ?_) _) fun _ => .forM follows_drainLeaf _
    exact .ite (follows_readClient _ idx) (.pure _)

-- ---------------------------------------------------------------------------
-- Flush, resync and reap
-- ---------------------------------------------------------------------------

theorem leaf_takeOutbound {P : Pty → Prop} {k : Kernel}
    (h : ∃ s, k.session i = some s ∧ s.ephemeral = false ∧ P s.pty) (claimed : List SessionId) :
    ∃ s, (k.takeOutbound claimed).session i = some s ∧ s.ephemeral = false ∧ P s.pty := by
  obtain ⟨s, hs, hP⟩ := h
  rw [session_takeOutbound, hs]
  exact ⟨_, rfl, hP⟩

theorem follows_flushOutbound : Follows i T flushOutbound := by
  refine .get_bind (fun d _ => ?_) fun d => .bind ?_ fun _ => ?_
  · have hclients : ((repair i T).fix d).clients = d.clients := rfl
    simp only [queued_fix, hclients]
  · refine .modify (fun e h => ?_) (fun e h => ?_) fun e _ => ?_
    · exact leaf_takeOutbound h _
    · exact leaf_takeOutbound h _
    · exact congrArg e.setKernel (takeOutbound_heal e.kernel _)
  · generalize Op.each _ d.clients = r
    obtain ⟨r, clients⟩ := r
    refine .bind (follows_modify (fun _ => rfl) fun _ => rfl) fun _ => ?_
    match r with
    | .ok () => exact .pure _
    | .error (idx, .write) => exact follows_dropClient idx
    | .error (_, .encode e) => exact .throw _

theorem follows_resyncLeaf (id : SessionId) : Follows i T (resyncLeaf id) := by
  refine .bind (follows_onLeaf ?_) fun history => ?_
  · exact ⟨fun s h => h, fun s h => .same _ h⟩
  · cases history with
    | none => exact .pure _
    | some history =>
      refine .get_bind (fun d _ => ?_) fun d => .ite (.pure _) ?_
      · have hchip : ((repair i T).fix d).chip = d.chip := rfl
        have hprotocol : hasProtocol2 ((repair i T).fix d) id = hasProtocol2 d id := rfl
        simp only [taken_fix, hchip, hprotocol]
      · cases d.chip.resyncFromHistory history with
        | error e => exact .throw _
        | ok r =>
          refine .bind (follows_modify (fun _ => rfl) fun _ => rfl) fun _ => .ite (.pure _) ?_
          exact follows_onLeaf (Session.follows_modify (fun _ => rfl) (fun _ => rfl) fun _ => rfl)

theorem follows_maybeResync (p : Poll) : Follows i T (maybeResync p) :=
  .get_bind (fun d _ => by rw [ids_fix]) fun _ => .forM follows_resyncLeaf _

theorem follows_reapAll (p : Poll) : Follows i T (reapAll p) :=
  .get_bind (fun d _ => by rw [ids_fix]) fun _ =>
    .forM (fun id => follows_onKernel (follows_reap (p.reapAt id) id)) _

/-- A step goes as it would have, had no call on the leaf failed, or it fails. -/
theorem follows_step (p : Poll) : Follows i T (step p) :=
  .bind (follows_reapAll p) fun _ => .bind (follows_pollIo p) fun _ =>
    .bind follows_flushOutbound fun _ => follows_maybeResync p

-- ---------------------------------------------------------------------------
-- Isolation
-- ---------------------------------------------------------------------------

/-- The same but for leaf `i` and its clients. -/
structure Elsewhere (i : SessionId) (d e : Daemon) : Prop where
  sessions : ∀ id, id ≠ i → d.session id = e.session id
  clients : d.clients.filter (fun c => c.leaf ≠ some i) = e.clients.filter fun c => c.leaf ≠ some i

theorem elsewhere_heal (i : SessionId) (d : Daemon) : Elsewhere i d (d.heal i) := by
  refine ⟨fun id hid => ?_, rfl⟩
  change d.kernel.session id = (d.kernel.heal i).session id
  rw [session_heal]
  simp only [if_neg hid, Option.map_id']

/-- At the start of a step nothing is gone of the script of a leaf. -/
theorem sound_of_reachable {d : Daemon} (h : Reachable d) {s : Session} (hs : d.session i = some s) :
    (repair i s.pty.turns).sound d := by
  have htended : Tended s := by
    cases h with
    | mk hbind hrun => exact tended_runs hbind hrun hs
  refine ⟨s, hs, htended.ephemeral, List.suffix_refl _, fun t ht => ?_⟩
  rw [Pty.gone, Nat.sub_self] at ht
  cases ht

/-- A step of a daemon goes for all other leaves and their clients as it would have, had the calls
on leaf `i` succeeded, if and only if they did: `used` is what the script has for the calls of the
step, and what would have been left of it is as long as `rest`. -/
theorem step_isolated_iff {d d' : Daemon} (h : Reachable d) (p : Poll) {s s' : Session}
    {used rest : List Turn} (hs : d.session i = some s) (hscript : s.pty.turns = used ++ rest)
    (hhealed : (step p).exec (d.heal i) = (.ok (), d')) (hs' : d'.session i = some s')
    (hrest : s'.pty.turns.length = rest.length) :
    (∃ e, (step p).exec d = (.ok (), e) ∧ Elsewhere i e d') ↔ ∀ t ∈ used, t.fault = none := by
  have hgone : ∀ q : Pty, q.turns.length = rest.length → q.gone s.pty.turns = used := by
    intro q hq
    rw [Pty.gone, hq, hscript, List.length_append, Nat.add_sub_cancel, List.take_left]
  have hends := (follows_step p).run d (sound_of_reachable h hs)
  rw [show (repair i s.pty.turns).fix d = d.heal i from rfl, hhealed] at hends
  generalize (step p).exec d = r at hends
  cases hends with
  | @same e _ hsound =>
    obtain ⟨t, ht, -, -, hclean⟩ := hsound
    have hleft : t.pty.turns.length = rest.length := by
      have hheal : ((repair i s.pty.turns).fix e).session i = some t.heal := by
        rw [session_fix, show e.session i = some t from ht]
        exact congrArg some (if_pos rfl)
      obtain rfl : t.heal = s' := Option.some.inj (hheal.symm.trans hs')
      exact (List.length_map Turn.heal).symm.trans hrest
    rw [hgone t.pty hleft] at hclean
    exact ⟨fun _ => hclean, fun _ => ⟨e, rfl, elsewhere_heal i e⟩⟩
  | fails he hstruck =>
    obtain ⟨t, ht, -, turn, hturn, hfault⟩ := hstruck
    obtain rfl : t = s' := Option.some.inj (ht.symm.trans hs')
    rw [hgone t.pty hrest] at hturn
    constructor
    · rintro ⟨e, herror, -⟩
      cases herror
    · intro hclean
      rw [hclean turn hturn] at hfault
      cases hfault

/-- A writer's input is written, with the child echoing it. -/
theorem step_isolated_iff_echo :
    ∃ d, after [.quiet, .quiet, .quiet, ⟨[97], none, none, none⟩] ⟨1, 1, 0, 0⟩ false
        [{ Poll.quiet with accept := .ok (some (.of [.attach 1 none protocolVersion false]
            [.data (Frame.data [97]).wire] [])) },
          { Poll.quiet with ready := fun _ => true }] = .ok d ∧
      ∃ d' e, (step { Poll.quiet with ready := fun _ => true }).exec (d.heal ⟨1⟩) = (.ok (), d') ∧
        (step { Poll.quiet with ready := fun _ => true }).exec d = (.ok (), e) ∧
        Elsewhere ⟨1⟩ e d' := by
  obtain ⟨d, hafter, hfound⟩ := exists_after
    (r := after [.quiet, .quiet, .quiet, ⟨[97], none, none, none⟩] ⟨1, 1, 0, 0⟩ false
        [{ Poll.quiet with accept := .ok (some (.of [.attach 1 none protocolVersion false]
            [.data (Frame.data [97]).wire] [])) },
          { Poll.quiet with ready := fun _ => true }])
    (p := fun d => (d.session ⟨1⟩).any (fun s => s.pty.turns = [.quiet, ⟨[97], none, none, none⟩]) &&
      ((step { Poll.quiet with ready := fun _ => true }).exec (d.heal ⟨1⟩)).1.toBool &&
      (((step { Poll.quiet with ready := fun _ => true }).exec (d.heal ⟨1⟩)).2.session ⟨1⟩).any
        fun s => s.pty.turns.length = 0)
    (by decide +kernel) (fun _ h => h)
  simp only [Bool.and_eq_true, Option.any_eq_true, decide_eq_true_eq] at hfound
  obtain ⟨⟨⟨s, hs, hscript⟩, hok⟩, s', hs', hrest⟩ := hfound
  rcases hhealed : (step { Poll.quiet with ready := fun _ => true }).exec (d.heal ⟨1⟩) with ⟨r, d'⟩
  rw [hhealed] at hok hs'
  cases r with
  | error e => cases hok
  | ok =>
    have hscript' : s.pty.turns = [.quiet, ⟨[97], none, none, none⟩] ++ [] := hscript
    obtain ⟨e, hstep, helse⟩ := (step_isolated_iff (after_reachable hafter) _ hs hscript' hhealed
      hs' hrest).mpr (by decide)
    exact ⟨d, hafter, d', e, hhealed, hstep, helse⟩

/-- The same writer's input, with a child that does not take it for two seconds. -/
theorem step_unwound :
    ∃ d, after [.quiet, .quiet, .quiet, ⟨[], none, some .timeout, none⟩] ⟨1, 1, 0, 0⟩ false
        [{ Poll.quiet with accept := .ok (some (.of [.attach 1 none protocolVersion false]
            [.data (Frame.data [97]).wire] [])) },
          { Poll.quiet with ready := fun _ => true }] = .ok d ∧
      ∃ d', (step { Poll.quiet with ready := fun _ => true }).exec (d.heal ⟨1⟩) = (.ok (), d') ∧
        ¬ ∃ e, (step { Poll.quiet with ready := fun _ => true }).exec d = (.ok (), e) ∧
          Elsewhere ⟨1⟩ e d' := by
  refine exists_after
    (p := fun d => ((step { Poll.quiet with ready := fun _ => true }).exec (d.heal ⟨1⟩)).1.toBool &&
      !((step { Poll.quiet with ready := fun _ => true }).exec d).1.toBool)
    (by decide +kernel) fun d hfound => ?_
  simp only [Bool.and_eq_true, Bool.not_eq_true'] at hfound
  obtain ⟨hok, hfails⟩ := hfound
  rcases hhealed : (step { Poll.quiet with ready := fun _ => true }).exec (d.heal ⟨1⟩) with ⟨r, d'⟩
  rw [hhealed] at hok
  cases r with
  | error e => cases hok
  | ok =>
    refine ⟨d', rfl, ?_⟩
    rintro ⟨e, hstep, -⟩
    rw [hstep] at hfails
    cases hfails

end Rill.Daemon
