import Rill.Daemon.Trace
import Rill.Vt.Roundtrip

/-!
# What is rendered for a leaf

Repaints and checkpoints of every leaf come from one engine, cleared before each
of them. It keeps the size the daemon was bound with, so what is rendered for a
leaf depends on that leaf's history alone, and is of the leaf's own size only
while nobody has resized it.
-/

namespace Rill.Daemon

open Lib Attach Kernel Vt Function

-- ---------------------------------------------------------------------------
-- Renderings
-- ---------------------------------------------------------------------------

/-- The repaint of a history on a new engine of a size. -/
def repaintOf (size : Winsize) (history : List UInt8) : Except Vt.Error Frame := do
  let e ← VtEngine.new size.cols size.rows
  let (bytes, _) ← e.resyncFromHistory history
  pure (.data bytes)

def gridOf (size : Winsize) (history : List UInt8) : Except Vt.Error PodGrid := do
  let e ← VtEngine.new size.cols size.rows
  pure (if history.isEmpty then e else e.feed history).snapshot.1

def checkpointOf (size : Winsize) (s : Session) : Except Vt.Error Frame := do
  pure (checkpointFrame s (← gridOf size s.history))

/-- The leaf has the size the daemon was bound with. -/
def Unresized (d : Daemon) (s : Session) : Prop :=
  s.size.cols = d.size.cols ∧ s.size.rows = d.size.rows

-- ---------------------------------------------------------------------------
-- The size of the engine
-- ---------------------------------------------------------------------------

def Sized (d : Daemon) : Prop := d.chip.screen.cols = d.size.cols ∧ d.chip.screen.rows = d.size.rows

theorem size_of_sound {cols rows : UInt16} {s : Screen} (h : Sound True cols.toNat rows.toNat s) :
    s.cols = cols ∧ s.rows = rows := ⟨UInt16.toNat_inj.mp h.cols_eq, UInt16.toNat_inj.mp h.rows_eq⟩

/-- The engine a resync leaves has the size it had. -/
theorem resyncFromHistory_size {e f : VtEngine} (h : e.resyncFromHistory history = .ok (bytes, f)) :
    f.screen.cols = e.screen.cols ∧ f.screen.rows = e.screen.rows := by
  unfold VtEngine.resyncFromHistory at h
  cases hr : e.reset with
  | error err =>
    rw [hr] at h
    cases h
  | ok fresh =>
    rw [hr] at h
    obtain ⟨-, rfl⟩ := Prod.mk.inj (Except.ok.inj h)
    have hs := VtEngine.sound_of_new hr
    refine size_of_sound (s := Screen.setDiscardReplies _ false) ?_
    have hfresh : Sound True e.screen.cols.toNat e.screen.rows.toNat
        (fresh.screen.setDiscardReplies true) := { hs with }
    split
    · exact { hfresh with }
    · exact { hfresh.acts _ with }

theorem chipFrom_size {e f : VtEngine} (h : chipFrom e history = .ok f) :
    f.screen.cols = e.screen.cols ∧ f.screen.rows = e.screen.rows := by
  unfold chipFrom at h
  cases hr : e.reset with
  | error err =>
    rw [hr] at h
    cases h
  | ok fresh =>
    rw [hr] at h
    obtain rfl := Except.ok.inj h
    have hs := VtEngine.sound_of_new hr
    split
    · exact size_of_sound hs
    · exact size_of_sound (hs.acts _)

theorem sized_dropClient {d : Daemon} (h : Sized d) (idx : Nat) : Sized (d.dropClient idx) := by
  unfold Daemon.dropClient
  split
  · exact h
  · exact h

theorem sized_onKernel (m : Op Kernel Kernel.Error α) : Op.Keeps Sized (onKernel m) :=
  Op.Keeps.mapError _ (Op.Keeps.on fun _ h => h)

theorem sized_onFrame (m : Moment) (id : SessionId) (f : Frame) :
    Op.Keeps Sized (onFrame m id f) := by
  refine Op.Keeps.bind (Op.Keeps.attempt (sized_onKernel _)) fun r => ?_
  split
  · exact Op.Keeps.pure _
  · exact Op.Keeps.pure _
  · exact Op.Keeps.throw _

theorem sized_onLeaf (id : SessionId) (missing : α) (m : Op Session Kernel.Error α) :
    Op.Keeps Sized (onLeaf id missing m) := by
  refine Op.Keeps.bind Op.Keeps.get fun d => ?_
  split
  · exact Op.Keeps.pure _
  · exact sized_onKernel _

theorem sized_sendTo (idx : Nat) (q : Queued) : Op.Keeps Sized (sendTo idx q) := by
  refine Op.Keeps.bind Op.Keeps.get fun d => ?_
  split
  · exact Op.Keeps.pure _
  · exact Op.Keeps.bind (Op.Keeps.modify fun _ h => h) fun _ =>
      Op.Keeps.mapError _ (Op.Keeps.lift _)

theorem sized_emitCheckpoint (idx : Nat) (id : SessionId) :
    Op.Keeps Sized (emitCheckpoint idx id) := by
  refine Op.Keeps.get_bind fun d hd => ?_
  cases d.session id with
  | none => exact hd
  | some s =>
    dsimp only
    rw [Op.exec_get_bind, Op.exec_bind]
    cases hchip : chipFrom d.chip s.history with
    | error e => exact hd
    | ok chip =>
      obtain ⟨hcols, hrows⟩ := chipFrom_size hchip
      refine Op.Keeps.get_bind (fun u hu => ?_) (d.setChip chip)
        ⟨hcols.trans hd.1, hrows.trans hd.2⟩
      rw [Op.exec_modify_bind]
      exact sized_sendTo _ _ (u.setChip u.chip.snapshot.2) hu

theorem sized_sendHistory (idx : Nat) (id : SessionId) : Op.Keeps Sized (sendHistory idx id) := by
  refine Op.Keeps.bind Op.Keeps.get fun d => ?_
  split
  · exact Op.Keeps.pure _
  · exact Op.Keeps.ite (fun _ => Op.Keeps.pure _) fun _ => sized_sendTo _ _

theorem sized_dispatchFrame (m : Moment) (idx : Nat) (f : Frame) :
    Op.Keeps Sized (dispatchFrame m idx f) := by
  unfold dispatchFrame
  split
  case h_1 generation sessionId protocol observe =>
    refine Op.Keeps.bind Op.Keeps.get fun d => ?_
    refine Op.Keeps.ite (fun _ => sized_sendTo _ _) fun _ => ?_
    split
    · exact sized_sendTo _ _
    refine Op.Keeps.ite (fun _ => sized_sendTo _ _) fun _ => ?_
    refine Op.Keeps.bind (sized_onFrame _ _ _) fun _ => Op.Keeps.bind Op.Keeps.get fun u => ?_
    refine Op.Keeps.ite (fun _ => ?_) fun _ => Op.Keeps.pure _
    refine Op.Keeps.bind (Op.Keeps.modify fun _ h => h) fun _ => ?_
    refine Op.Keeps.ite (fun _ => sized_emitCheckpoint _ _) fun _ => ?_
    exact Op.Keeps.ite (fun _ => sized_sendHistory _ _) fun _ => Op.Keeps.pure _
  case h_2 =>
    refine Op.Keeps.bind Op.Keeps.get fun d => ?_
    split
    · exact Op.Keeps.modify fun _ h => sized_dropClient h _
    refine Op.Keeps.ite (fun _ => Op.Keeps.pure _) fun _ => ?_
    intro u hu
    rw [exec_dispatchOwn]
    exact sized_onFrame _ _ _ _ hu

theorem sized_fetchFrames (idx : Nat) : Op.Keeps Sized (fetchFrames idx) := by
  have hdrop : Op.Keeps Sized (do
      modify fun d : Daemon => d.dropClient idx
      pure [] : DaemonM (List Frame)) :=
    Op.Keeps.bind (Op.Keeps.modify fun _ h => sized_dropClient h _) fun _ => Op.Keeps.pure _
  have hkeep : ∀ (c : Client) (frames : List Frame), Op.Keeps Sized (do
      modify fun d : Daemon => d.modifyClient idx fun _ => c
      pure frames : DaemonM (List Frame)) := fun _ _ =>
    Op.Keeps.bind (Op.Keeps.modify fun _ h => h) fun _ => Op.Keeps.pure _
  refine Op.Keeps.bind Op.Keeps.get fun d => ?_
  split
  · exact Op.Keeps.pure _
  split
  · exact hkeep _ _
  · exact hdrop
  · exact hdrop
  split
  · exact hdrop
  · exact hkeep _ _

theorem sized_eachClient (m : Op Client Attach.Error Unit) : Op.Keeps Sized (eachClient m) :=
  Op.Keeps.bind Op.Keeps.get fun _ =>
    Op.Keeps.bind (Op.Keeps.modify fun _ h => h) fun _ => Op.Keeps.lift _

theorem sized_drainOnce (id : SessionId) : Op.Keeps Sized (drainOnce id) := by
  refine Op.Keeps.bind Op.Keeps.get fun d => Op.Keeps.ite (fun _ => ?_) fun _ => ?_
  · refine Op.Keeps.bind Op.Keeps.get fun u => Op.Keeps.ite (fun _ => ?_) fun _ => ?_
    · exact Op.Keeps.bind (sized_onLeaf _ _ _) fun _ => Op.Keeps.pure _
    refine Op.Keeps.bind (sized_onLeaf _ _ _) fun got => ?_
    split
    · exact Op.Keeps.pure _
    · exact Op.Keeps.bind Op.Keeps.get fun _ =>
        Op.Keeps.bind (sized_eachClient _) fun _ => Op.Keeps.pure _
  · exact Op.Keeps.bind (sized_onLeaf _ _ _) fun _ => Op.Keeps.pure _

theorem sized_flushOutbound : Op.Keeps Sized flushOutbound := by
  refine Op.Keeps.bind Op.Keeps.get fun d => Op.Keeps.bind (Op.Keeps.modify fun _ h => h) fun _ => ?_
  refine Op.Keeps.bind (Op.Keeps.modify fun _ h => h) fun _ => ?_
  split
  · exact Op.Keeps.pure _
  · exact Op.Keeps.modify fun _ h => sized_dropClient h _
  · exact Op.Keeps.throw _

theorem sized_resyncLeaf (id : SessionId) : Op.Keeps Sized (resyncLeaf id) := by
  refine Op.Keeps.bind (sized_onLeaf _ _ _) fun history => ?_
  cases history with
  | none => exact Op.Keeps.pure _
  | some history =>
    refine Op.Keeps.get_bind fun d hd => ?_
    by_cases hprotocol : hasProtocol2 d id = true
    · rw [if_pos hprotocol]
      exact hd
    rw [if_neg hprotocol]
    cases hresync : d.chip.resyncFromHistory history with
    | error e => exact hd
    | ok r =>
      obtain ⟨bytes, chip⟩ := r
      obtain ⟨hcols, hrows⟩ := resyncFromHistory_size hresync
      dsimp only
      rw [Op.exec_modify_bind]
      refine Op.Keeps.ite (fun _ => Op.Keeps.pure _) (fun _ => sized_onLeaf _ _ _) (d.setChip chip) ?_
      exact ⟨hcols.trans hd.1, hrows.trans hd.2⟩

/-- The bound size is kept by every act. -/
theorem Sized.takes {d d' : Daemon} {a : Act} (h : Sized d) (ha : a.Takes d d') : Sized d' := by
  have hkeeps : Op.Keeps Sized a.run := by
    cases a with
    | accept stream => exact Op.Keeps.modify fun _ h => h
    | spawn turns =>
      exact Op.Keeps.bind (Op.Keeps.mapError _ (Op.Keeps.lift _)) fun _ =>
        Op.Keeps.modify fun _ h => h
    | fetch idx => exact Op.Keeps.bind (sized_fetchFrames idx) fun _ => Op.Keeps.pure _
    | frame m idx f => exact sized_dispatchFrame m idx f
    | reap m id => exact sized_onKernel _
    | drain id => exact Op.Keeps.bind (sized_drainOnce id) fun _ => Op.Keeps.pure _
    | flush => exact sized_flushOutbound
    | resync id => exact sized_resyncLeaf id
  have hrun := hkeeps d h
  rw [ha.2] at hrun
  exact hrun

/-- Whatever was rendered before, the engine is of the size it was bound with. -/
theorem Reachable.sized {d : Daemon} (h : Reachable d) : Sized d := by
  obtain ⟨hbind, hrun⟩ := h
  refine hrun.invariant (fun _ _ _ hsized _ ha => hsized.takes ha) ?_
  rw [Daemon.bind] at hbind
  dsimp only at hbind
  split at hbind
  case h_2 => cases hbind
  case h_1 chip hchip =>
    obtain rfl := Except.ok.inj hbind
    exact size_of_sound (VtEngine.sound_of_new hchip)

-- ---------------------------------------------------------------------------
-- What is rendered
-- ---------------------------------------------------------------------------

theorem resyncFromHistory_congr {e f : VtEngine} (hcols : e.screen.cols = f.screen.cols)
    (hrows : e.screen.rows = f.screen.rows) (history : List UInt8) :
    e.resyncFromHistory history = f.resyncFromHistory history := by
  simp only [VtEngine.resyncFromHistory, VtEngine.reset, hcols, hrows]

/-- A repaint is of the size the daemon was bound with. -/
theorem repaintOf_of_resync {d : Daemon} {bytes : List UInt8} {chip : VtEngine} (h : Sized d)
    (hresync : d.chip.resyncFromHistory history = .ok (bytes, chip)) :
    repaintOf d.size history = .ok (.data bytes) := by
  cases hnew : VtEngine.new d.size.cols d.size.rows with
  | error e =>
    rw [VtEngine.resyncFromHistory, VtEngine.reset, h.1, h.2, hnew] at hresync
    cases hresync
  | ok e =>
    obtain ⟨hcols, hrows⟩ := size_of_sound (VtEngine.sound_of_new hnew)
    rw [resyncFromHistory_congr (h.1.trans hcols.symm) (h.2.trans hrows.symm)] at hresync
    rw [repaintOf, hnew]
    change (e.resyncFromHistory history >>= fun r => pure (Frame.data r.1)) = _
    rw [hresync]
    rfl

theorem gridOf_of_chipFrom {d : Daemon} {chip : VtEngine} (h : Sized d)
    (hchip : chipFrom d.chip history = .ok chip) : gridOf d.size history = .ok chip.snapshot.1 := by
  rw [chipFrom, VtEngine.reset, h.1, h.2] at hchip
  rw [gridOf]
  cases hnew : VtEngine.new d.size.cols d.size.rows with
  | error e =>
    rw [hnew] at hchip
    cases hchip
  | ok e =>
    rw [hnew] at hchip
    obtain rfl := Except.ok.inj hchip
    rfl

theorem repaintOf_congr {size size' : Winsize} (hcols : size.cols = size'.cols)
    (hrows : size.rows = size'.rows) (history : List UInt8) :
    repaintOf size history = repaintOf size' history := by
  simp only [repaintOf, hcols, hrows]

theorem gridOf_congr {size size' : Winsize} (hcols : size.cols = size'.cols)
    (hrows : size.rows = size'.rows) (history : List UInt8) :
    gridOf size history = gridOf size' history := by
  simp only [gridOf, hcols, hrows]

theorem gridOf_size {size : Winsize} (h : gridOf size history = .ok grid) :
    grid.cols = size.cols ∧ grid.rows = size.rows := by
  rw [gridOf] at h
  cases hnew : VtEngine.new size.cols size.rows with
  | error e =>
    rw [hnew] at h
    cases h
  | ok e =>
    rw [hnew] at h
    obtain rfl := Except.ok.inj h
    have hs := VtEngine.sound_of_new hnew
    change Screen.cols _ = _ ∧ Screen.rows _ = _
    split
    · exact size_of_sound hs
    · exact size_of_sound (hs.acts _)

theorem encodePodGrid_size {grid grid' : PodGrid} (h : encodePodGrid grid = encodePodGrid grid') :
    grid.cols = grid'.cols ∧ grid.rows = grid'.rows := by
  simp only [encodePodGrid, List.append_assoc] at h
  obtain ⟨hcols, h⟩ := (reads_u16 grid.cols).unique (reads_u16 grid'.cols) h
  exact ⟨hcols, ((reads_u16 grid.rows).unique (reads_u16 grid'.rows) h).1⟩

/-- A CHECKPOINT of the bound size is one of the leaf's size exactly when nobody
has resized the leaf. -/
theorem checkpointOf_iff {d : Daemon} {s : Session} {grid : PodGrid}
    (h : gridOf d.size s.history = .ok grid) :
    checkpointOf s.size s = .ok (checkpointFrame s grid) ↔ Unresized d s := by
  constructor
  · intro hown
    rw [checkpointOf] at hown
    cases hgrid : gridOf s.size s.history with
    | error e =>
      rw [hgrid] at hown
      cases hown
    | ok grid' =>
      rw [hgrid] at hown
      obtain ⟨-, -, hbytes⟩ := Frame.checkpoint.inj (Except.ok.inj hown)
      obtain ⟨hcols, hrows⟩ := encodePodGrid_size hbytes
      obtain ⟨hcols', hrows'⟩ := gridOf_size hgrid
      obtain ⟨hcols'', hrows''⟩ := gridOf_size h
      exact ⟨hcols'.symm.trans (hcols.trans hcols''), hrows'.symm.trans (hrows.trans hrows'')⟩
  · rintro ⟨hcols, hrows⟩
    rw [checkpointOf, gridOf_congr hcols hrows, h]
    rfl

-- ---------------------------------------------------------------------------
-- What is rendered has the bound size
-- ---------------------------------------------------------------------------

theorem Sized.repaint {d d' : Daemon} {id : SessionId} {s : Session} (h : Sized d)
    (hs : d.session id = some s) (hpending : s.resyncPending) (hprotocol : hasProtocol2 d id = false)
    (hrun : (resyncLeaf id).exec d = (.ok (), d')) :
    ∃ frame, repaintOf d.size s.history = .ok frame ∧
      d'.session id = some (s.takeResyncHistory.2.enqueueOutbound
        ⟨frame, .repaint s.pty.taken.length⟩) := by
  obtain ⟨bytes, chip, hresync, rfl⟩ := resyncLeaf_repaint hs hpending hprotocol hrun
  refine ⟨.data bytes, repaintOf_of_resync h hresync, ?_⟩
  have hset : ((d.setSession id s.takeResyncHistory.2).setChip chip).session id =
      some s.takeResyncHistory.2 := by
    rw [session_setChip, session_setSession hs, update_self]
  rw [session_setSession hset, update_self]

theorem Sized.checkpoint {d d' : Daemon} {m : Moment} {idx : Nat} {generation : UInt64}
    {sessionId : Option UInt64} {observe : Bool} {c : Client} (h : Sized d)
    (hc : d.clients[idx]? = some c)
    (hrun : (dispatchFrame m idx (.attach generation sessionId protocol2 observe)).exec d =
      (.ok (), d')) :
    ∃ c', d'.clients[idx]? = some c' ∧
      ((∃ reason, c'.log = c.log ++ [⟨.refused reason, .control⟩]) ∨
        ∃ id s grid, c'.leaf = some id ∧ d'.session id = some s ∧
          c'.log = c.log ++ [⟨checkpointFrame s grid, .repaint s.pty.taken.length⟩] ∧
          gridOf d.size s.history = .ok grid) := by
  have hrefused : ∀ reason, (refuse idx reason).exec d = (.ok (), d') →
      ∃ c', d'.clients[idx]? = some c' ∧
        ∃ reason, c'.log = c.log ++ [⟨.refused reason, .control⟩] := by
    intro reason hrefuse
    obtain ⟨g, rfl, hg⟩ := sendTo_ok hrefuse
    exact ⟨g c, by simp [hc], reason, (hg c).log⟩
  change (dispatchAttach m idx generation sessionId protocol2 observe).exec d = _ at hrun
  rw [dispatchAttach, Op.exec_get_bind] at hrun
  split at hrun
  case isTrue =>
    obtain ⟨c', hc', hlog⟩ := hrefused _ hrun
    exact ⟨c', hc', .inl hlog⟩
  case isFalse =>
    cases hid : d.resolveAttach sessionId with
    | none =>
      rw [hid] at hrun
      obtain ⟨c', hc', hlog⟩ := hrefused _ hrun
      exact ⟨c', hc', .inl hlog⟩
    | some id =>
      rw [hid] at hrun
      dsimp only at hrun
      split at hrun
      case isTrue =>
        obtain ⟨c', hc', hlog⟩ := hrefused _ hrun
        exact ⟨c', hc', .inl hlog⟩
      case isFalse =>
        obtain ⟨s, k, hs, hk, hrest⟩ := acceptAttach_role hrun
        rw [if_pos rfl] at hrest
        obtain ⟨chip, g, hchip, rfl, hg⟩ := emitCheckpoint_frame
          (s := s.attach m generation observe) (by simp [hk]) hrest
        refine ⟨g (c.attachTo id observe protocol2 s.pty.taken.length), ?_,
          .inr ⟨id, s.attach m generation observe, _, (hg _).leaf, ?_, (hg _).log, gridOf_of_chipFrom h hchip⟩⟩
        · simp [hc]
        · simp [hk]

/-- Repaints and CHECKPOINTs are of the size the daemon was bound with, whatever
was rendered before. So they are of the leaf's own size while it has that size,
and a CHECKPOINT only then. -/
theorem rendered_sized {d d' : Daemon} {a : Act} (hd : Reachable d) (ha : a.Takes d d') :
    (∀ id s, a = .resync id → d.session id = some s → s.resyncPending →
      hasProtocol2 d id = false →
        ∃ frame, repaintOf d.size s.history = .ok frame ∧
          d'.session id = some (s.takeResyncHistory.2.enqueueOutbound
            ⟨frame, .repaint s.pty.taken.length⟩) ∧
          (Unresized d s → repaintOf s.size s.history = .ok frame)) ∧
    ∀ m idx generation sessionId observe c,
      a = .frame m idx (.attach generation sessionId protocol2 observe) →
      d.clients[idx]? = some c →
        ∃ c', d'.clients[idx]? = some c' ∧
          ((∃ reason, c'.log = c.log ++ [⟨.refused reason, .control⟩]) ∨
            ∃ id s frame, c'.leaf = some id ∧ d'.session id = some s ∧
              c'.log = c.log ++ [⟨frame, .repaint s.pty.taken.length⟩] ∧
              checkpointOf d.size s = .ok frame ∧
              (checkpointOf s.size s = .ok frame ↔ Unresized d s)) := by
  have hsized := hd.sized
  constructor
  · rintro id s rfl hs hpending hprotocol
    obtain ⟨frame, hframe, hqueue⟩ := hsized.repaint hs hpending hprotocol ha.2
    refine ⟨frame, hframe, hqueue, ?_⟩
    rintro ⟨hcols, hrows⟩
    rw [repaintOf_congr hcols hrows, hframe]
  · rintro m idx generation sessionId observe c rfl hc
    obtain ⟨c', hc', hrefused | ⟨id, s, grid, hleaf, hs, hlog, hgrid⟩⟩ :=
      hsized.checkpoint hc ha.2
    · exact ⟨c', hc', .inl hrefused⟩
    · refine ⟨c', hc', .inr ⟨id, s, _, hleaf, hs, hlog, ?_, checkpointOf_iff hgrid⟩⟩
      rw [checkpointOf, hgrid]
      rfl

/-- An observer comes to a leaf of 4 by 2 that has been read, after its writer. -/
theorem rendered_sized_checkpoint :
    ∃ d d', Reachable d ∧ Act.Takes d (.frame ⟨0, 3600⟩ 1 (.attach 2 none protocol2 true)) d' ∧
      ∃ c' s frame, d'.clients[1]? = some c' ∧ d'.session ⟨1⟩ = some s ∧
        s.pty.taken = [97, 98, 99, 13, 10, 100] ∧
        c'.log = [⟨frame, .repaint s.pty.taken.length⟩] ∧ checkpointOf s.size s = .ok frame := by
  let act : Act := .frame ⟨0, 3600⟩ 1 (.attach 2 none protocol2 true)
  let shown (d' : Daemon) : Bool := d'.clients[1]?.any fun c =>
    c.leaf = some ⟨1⟩ && c.log.all fun q => q.origin ≠ .control
  let read (d' : Daemon) : Bool := (d'.session ⟨1⟩).any fun s =>
    s.size = ⟨4, 2, 0, 0⟩ && s.pty.taken = [97, 98, 99, 13, 10, 100]
  let accepted (d : Daemon) : Bool :=
    d.clients[1]? = some (.new (.of [] [] [])) && d.size = ⟨4, 2, 0, 0⟩ &&
      (act.run.exec d).1.isOk && shown (act.run.exec d).2 && read (act.run.exec d).2
  obtain ⟨d, hd, h⟩ : ∃ d, after [⟨[97, 98, 99, 13, 10, 100], none, none, none⟩] ⟨4, 2, 0, 0⟩ false
      [{ Poll.quiet with
          accept := .ok (some (.of [.attach 1 none protocolVersion false, .credit 20] [] [])) },
        { Poll.quiet with
          ready := fun idx => idx = 0
          readable := fun _ => true
          accept := .ok (some (.of [] [] [])) }] = .ok d ∧ accepted d = true :=
    exists_after (by decide +kernel) fun _ h => h
  simp only [accepted, Bool.and_eq_true, decide_eq_true_eq] at h
  obtain ⟨⟨⟨⟨hc, hkept⟩, hok⟩, hshown⟩, hread⟩ := h
  obtain ⟨d', htakes, hexec⟩ := Act.exists_takes (a := act) trivial hok
  rw [hexec] at hshown hread
  obtain ⟨c', hc', ⟨reason, hlog⟩ | ⟨id, s, frame, hleaf, hs, hlog, -, hiff⟩⟩ :=
    (rendered_sized (after_reachable hd) htakes).2 ⟨0, 3600⟩ 1 2 none true _ rfl hc
  · simp [shown, hc', hlog, Client.new] at hshown
  · simp only [shown, hc', hleaf, Option.any_some, Bool.and_eq_true, decide_eq_true_eq] at hshown
    obtain rfl := Option.some.inj hshown.1
    simp only [read, hs, Option.any_some, Bool.and_eq_true, decide_eq_true_eq] at hread
    obtain ⟨hsize, htaken⟩ := hread
    exact ⟨d, d', after_reachable hd, htakes, c', s, frame, hc', hs, htaken, hlog,
      hiff.mpr ⟨by rw [hsize, hkept], by rw [hsize, hkept]⟩⟩

/-- A client that resizes its leaf and attaches anew is sent a grid of the old
size. -/
theorem checkpoint_unsized :
    ∃ d, after [] ⟨1, 1, 0, 0⟩ false
        [{ Poll.quiet with
            accept := .ok (some (.of
              [.attach 1 none protocolVersion false, .resize 2 1 0 0, .attach 1 none protocol2 false]
              [] [])) },
          { Poll.quiet with ready := fun idx => idx = 0 }] = .ok d ∧
      ∃ c s frame, d.clients[0]? = some c ∧ d.session ⟨1⟩ = some s ∧ c.leaf = some ⟨1⟩ ∧
        (c.log.map Queued.frame).head? = some frame ∧ frame.isCheckpoint ∧
        checkpointOf s.size s ≠ .ok frame := by
  let differs (s : Session) (f : Frame) : Bool :=
    f.isCheckpoint && (checkpointOf s.size s).toOption.all fun g => g ≠ f
  let unsized (d : Daemon) : Bool :=
    d.clients[0]?.any fun c => (d.session ⟨1⟩).any fun s =>
      c.leaf = some ⟨1⟩ && (c.log.map Queued.frame).head?.any (differs s)
  refine exists_after (p := unsized) (by decide +kernel) fun d h => ?_
  obtain ⟨c, hc, h⟩ := (Option.any_eq_true _ _).mp h
  obtain ⟨s, hs, h⟩ := (Option.any_eq_true _ _).mp h
  obtain ⟨hleaf, h⟩ := Bool.and_eq_true_iff.mp h
  obtain ⟨frame, hframe, h⟩ := (Option.any_eq_true _ _).mp h
  obtain ⟨hcheckpoint, h⟩ := Bool.and_eq_true_iff.mp h
  refine ⟨c, s, frame, hc, hs, of_decide_eq_true hleaf, hframe, hcheckpoint, fun hsame => ?_⟩
  simp [hsame, Except.toOption] at h

end Rill.Daemon
