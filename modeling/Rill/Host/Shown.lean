import Rill.Host.Presenter
import Rill.Vt.Scrollback
import Rill.Vt.Shed

/-!
# What the presenter shows

An engine that is told what the client was told, and that nobody takes anything from,
says what there is to see: the presenter shows a window on the newest rows that
scrolled off it and its grid, however the pumps cut what they were told.
-/

namespace Rill.Vt

/-- The grid without what its host has taken since: damage, and the count of replies dropped. -/
def PodGrid.undamaged (g : PodGrid) : PodGrid :=
  { g with fullDamage := false, damageRow0 := 0, damageRow1 := 0, repliesDropped := 0 }

theorem Screen.Agree.undamaged {s t : Screen} (h : Agree s t) :
    t.snapshot.1.undamaged = s.snapshot.1.undamaged := by
  obtain ⟨k, rfl⟩ := h.eq_setHost
  rfl

theorem Screen.Agree.modeState {s t : Screen} (h : Agree s t) : t.modeState = s.modeState :=
  h.congr Screen.modeState fun _ _ => rfl

theorem Screen.Agree.podCell {s t : Screen} (h : Agree s t) : t.podCell = s.podCell :=
  h.congr Screen.podCell fun _ _ => rfl

theorem Screen.Alike.resize {s t u : Screen} {cols rows : UInt16} (h : Alike s t)
    (hs : s.resize cols rows = .ok u) : ∃ v, t.resize cols rows = .ok v ∧ Alike u v := by
  have hoff := h.scrolledOff
  obtain ⟨k, rfl⟩ := h.agree.eq_setHost
  unfold Screen.resize at hs ⊢
  split at hs
  case isTrue => cases hs
  case isFalse hsize =>
    obtain rfl := Except.ok.inj hs
    exact ⟨_, if_neg hsize, rfl, hoff⟩

theorem Screen.resize_behind {s u : Screen} {cols rows : UInt16} (h : s.resize cols rows = .ok u)
    (old : List (List Cell)) : (s.behind old).resize cols rows = .ok (u.behind old) := by
  unfold Screen.resize at h ⊢
  split at h
  case isTrue => cases h
  case isFalse hsize =>
    obtain rfl := Except.ok.inj h
    exact if_neg hsize

theorem Screen.modeState_resize {s u : Screen} {cols rows : UInt16} (h : s.resize cols rows = .ok u) :
    u.modeState = s.modeState := by
  unfold Screen.resize at h
  split at h
  case isTrue => cases h
  case isFalse =>
    obtain rfl := Except.ok.inj h
    rfl

theorem VtEngine.resize_of_ok {e : VtEngine} {s : Screen} {cols rows : UInt16}
    (h : e.screen.resize cols rows = .ok s) : e.resize cols rows = .ok { e with screen := s } := by
  unfold VtEngine.resize
  rw [h]
  rfl

theorem VtEngine.resize_fails_alike {e f : VtEngine} {cols rows : UInt16} {err : Error}
    (h : e.resize cols rows = .error err) : f.resize cols rows = .error err := by
  unfold VtEngine.resize Screen.resize at h ⊢
  by_cases hempty : (cols = 0 || rows = 0) = true
  · rw [if_pos hempty] at h ⊢
    exact h
  · rw [if_neg hempty] at h
    cases h

theorem PodGrid.codepoint_of_undamaged {v g : PodGrid} (h : v.undamaged = g.undamaged) (col row : UInt16) :
    (v.cell col row).map PodCell.codepoint = (g.cell col row).map PodCell.codepoint := by
  have hcell (g : PodGrid) : g.cell col row = g.undamaged.cell col row := rfl
  rw [hcell v, hcell g, h]

end Rill.Vt

namespace Rill.Host

open Lib Attach Vt
open Daemon (Stream Read)
open VtEngine (Update)

theorem undamaged_mark (view : PodGrid) (jumped : Bool) :
    (markFullIfViewportJumped view jumped).undamaged = view.undamaged := by
  cases jumped <;> rfl

theorem undamaged_composeViewport (history : List (List PodCell)) {live live' : PodGrid}
    (h : live.undamaged = live'.undamaged) (offset : UInt32) :
    (composeViewport history live offset).undamaged = (composeViewport history live' offset).undamaged := by
  have hwindow (g : PodGrid) : (composeViewport history g offset).undamaged =
      (composeViewport history g.undamaged offset).undamaged := by
    unfold composeViewport
    split
    case isTrue => rfl
    case isFalse => rfl
  rw [hwindow live, hwindow live', h]

/-- What is to be seen of an engine `offset` rows above its last. -/
def viewed (r : VtEngine) (offset : UInt32) : PodGrid :=
  (composeViewport (r.takeScrolledOff.1.rtake maxHistoryRows) r.snapshot.1 offset).undamaged

namespace Client

-- ---------------------------------------------------------------------------
-- The engine that is told the same
-- ---------------------------------------------------------------------------

/-- The client's engine is `r` but for what was taken from it, and the newest of the rows
`old` that were taken are its history. -/
structure Mirrors (r : VtEngine) (old : List (List Cell)) (c : Client) : Prop where
  parser : c.chip.parser = r.parser
  screen : (c.chip.screen.behind old).Alike r.screen
  history : c.historyRows = (old.map (List.map r.screen.podCell)).rtake maxHistoryRows

namespace Mirrors

variable {r : VtEngine} {old : List (List Cell)} {c c' : Client}

theorem of_eq (h : Mirrors r old c) (hchip : c'.chip = c.chip) (hrows : c'.historyRows = c.historyRows) :
    Mirrors r old c' := by
  obtain ⟨hparser, hscreen, hhistory⟩ := h
  rw [← hchip] at hparser hscreen
  exact ⟨hparser, hscreen, hrows.trans hhistory⟩

theorem feedChip (h : Mirrors r old c) (bytes : List UInt8) :
    Mirrors (r.feed bytes) old { c with chip := c.chip.feed bytes } where
  parser := congrArg (fun p => (p.feed bytes).1) h.parser
  screen := by
    have hbehind : (c.chip.parser.feed bytes).2.foldl Screen.act (c.chip.screen.behind old) =
        (c.chip.feed bytes).screen.behind old := (Screen.Behind.of_behind old c.chip.screen).acts _
    rw [← hbehind, h.parser]
    exact h.screen.acts _
  history := by
    have hpod : (r.feed bytes).screen.podCell = r.screen.podCell :=
      VtEngine.podCell_congr (Screen.palette_acts _ _)
    rw [hpod]
    exact h.history

theorem takeReplies (h : Mirrors r old c) : Mirrors r old { c with chip := c.chip.takeReplies.2 } :=
  have hagree : Screen.Agree (c.chip.screen.takeReplies.2.behind old) (c.chip.screen.behind old) := rfl
  ⟨h.parser, ⟨hagree.trans h.screen.agree, h.screen.scrolledOff⟩, h.history⟩

theorem takeSnapshot (h : Mirrors r old c) : Mirrors r old { c with chip := c.chip.snapshot.2 } :=
  have hagree : Screen.Agree (c.chip.screen.snapshot.2.behind old) (c.chip.screen.behind old) := rfl
  ⟨h.parser, ⟨hagree.trans h.screen.agree, h.screen.scrolledOff⟩, h.history⟩

theorem length_history (h : Mirrors r old c) : c.historyRows.length ≤ maxHistoryRows := by
  simp only [h.history, List.rtake, List.length_drop]
  omega

theorem podCell (h : Mirrors r old c) : c.chip.screen.podCell = r.screen.podCell :=
  h.screen.agree.podCell.symm

/-- The rows that had left the grid are history now. -/
theorem ingest (h : Mirrors r old c) : Mirrors r (old ++ c.chip.screen.scrolledOff) c.ingest where
  parser := h.parser
  screen := by
    have hrows : (c.ingest.chip.screen).behind (old ++ c.chip.screen.scrolledOff) =
        c.chip.screen.behind old := by
      simp [Client.ingest, VtEngine.takeScrolledOff, Screen.takeScrolledOff, Screen.behind]
    rw [hrows]
    exact h.screen
  history := by
    have hone := foldl_ingestScrolled h.length_history [c.chip.takeScrolledOff.1]
    have htaken : c.chip.takeScrolledOff.1 = c.chip.screen.scrolledOff.map (List.map r.screen.podCell) := by
      rw [← h.podCell]
      rfl
    simp only [List.foldl_cons, List.foldl_nil, List.flatten_singleton] at hone
    rw [List.map_append, ← htaken, ← rtake_append_rtake, ← h.history]
    exact hone

theorem feed (h : Mirrors r old c) (bytes : List UInt8) : ∃ old, Mirrors (r.feed bytes) old (c.feed bytes) :=
  ⟨_, (h.feedChip bytes).ingest.of_eq rfl rfl⟩

theorem resize (h : Mirrors r old c) {cols rows : UInt16} {chip : VtEngine}
    (hchip : c.chip.resize cols rows = .ok chip) :
    ∃ r', r.resize cols rows = .ok r' ∧ r'.modeState = r.modeState ∧ Mirrors r' old { c with chip } := by
  obtain ⟨s, hs, rfl⟩ := VtEngine.resize_eq hchip
  obtain ⟨t, ht, halike⟩ := h.screen.resize (Screen.resize_behind hs old)
  have hpod : t.podCell = r.screen.podCell := VtEngine.podCell_congr (Screen.palette_resize ht)
  refine ⟨_, VtEngine.resize_of_ok ht, Screen.modeState_resize ht, h.parser, halike, ?_⟩
  rw [hpod]
  exact h.history

theorem viewed (h : Mirrors r old c) (hnone : c.chip.screen.scrolledOff = []) (offset : UInt32) :
    (composeViewport c.historyRows c.chip.screen.snapshot.1 offset).undamaged = viewed r offset := by
  have hold : r.screen.scrolledOff = old := by
    rw [h.screen.scrolledOff]
    simp [Screen.behind, hnone]
  have hrows : c.historyRows = r.takeScrolledOff.1.rtake maxHistoryRows := by
    rw [h.history, ← hold]
    rfl
  have hgrid : r.screen.snapshot.1.undamaged = c.chip.screen.snapshot.1.undamaged :=
    h.screen.agree.undamaged
  rw [hrows]
  exact undamaged_composeViewport _ hgrid.symm offset

end Mirrors

-- ---------------------------------------------------------------------------
-- What sending leaves alone
-- ---------------------------------------------------------------------------

/-- What only output sets, and what nothing sets. -/
def setting (c : Client) : TerminalModeState × HostSurface := (c.modes, c.surface)

section

variable {m : TerminalModeState × HostSurface}

theorem setting_violate {c : Client} (h : c.setting = m) : c.violate.setting = m := by
  unfold violate
  split
  case isTrue => exact h
  case isFalse => exact h

theorem setting_flushOutbox : Op.Keeps (fun c => c.setting = m) flushOutbox := by
  refine Op.Keeps.get_bind fun c h => ?_
  rcases Daemon.Client.writeLoop c.stream.writes c.outbox c.stream.sent with ⟨ok, writes, outbox, sent⟩
  dsimp only
  rw [Op.exec_modify_bind]
  cases ok with
  | true => exact h
  | false => exact h

theorem setting_send (frame : Frame) : Op.Keeps (fun c => c.setting = m) (send frame) := by
  refine Op.Keeps.bind (Op.Keeps.modify fun c h => ?_) fun _ => ?_
  · split
    case isTrue => exact h
    case isFalse => exact setting_violate h
  refine Op.Keeps.bind (Op.Keeps.mapError _ (Op.Keeps.lift _)) fun bytes => ?_
  exact Op.Keeps.bind (Op.Keeps.modify fun c h => h) fun _ => setting_flushOutbox

theorem setting_grantCredit (n : UInt32) : Op.Keeps (fun c => c.setting = m) (grantCredit n) :=
  Op.Keeps.bind (Op.Keeps.modify fun _ h => h) fun _ => setting_send _

theorem setting_greet (sessionId : Option UInt64) : Op.Keeps (fun c => c.setting = m) (greet sessionId) :=
  Op.Keeps.bind (setting_send _) fun _ => setting_grantCredit _

theorem setting_replenish (fed : Nat) : Op.Keeps (fun c => c.setting = m) (replenish fed) :=
  Op.Keeps.ite (fun _ => setting_grantCredit _) fun _ => Op.Keeps.pure _

theorem setting_receive (fed : Nat) {frame : Frame} (hdata : frame.isData = false) :
    Op.Keeps (fun c => c.setting = m) (receive fed frame) := by
  have hviolate : Op.Keeps (fun c => c.setting = m) (modify violate : Op Client Error Unit) :=
    Op.Keeps.modify fun _ h => setting_violate h
  cases frame with
  | data bytes => cases hdata
  | exit status => exact Op.Keeps.bind (Op.Keeps.modify fun _ h => setting_violate h) fun _ => Op.Keeps.pure _
  | refused reason => exact hviolate.bind fun _ => Op.Keeps.throw _
  | _ => exact hviolate.bind fun _ => Op.Keeps.pure _

end

-- ---------------------------------------------------------------------------
-- What the client is told
-- ---------------------------------------------------------------------------

/-- What a frame tells the engine. -/
def news : Frame → List Update
  | .data bytes => [.feed bytes]
  | _ => []

/-- The client has told its engine what was told to one that began as `e`, the views in its
cache are those of that one, and so are the modes once there has been output. -/
structure Told (e : VtEngine) (told : List Update) (c : Client) : Prop where
  mirrors : ∃ old, Mirrors (told.foldl VtEngine.update e) old c
  cached : ∀ v ∈ c.cached, v.undamaged = viewed (told.foldl VtEngine.update e) c.scrollOffset
  live : ∀ v ∈ c.liveCached, v.undamaged = (told.foldl VtEngine.update e).snapshot.1.undamaged
  modes : ∀ bytes, Update.feed bytes ∈ told → c.modes = (told.foldl VtEngine.update e).modeState

namespace Told

variable {e : VtEngine} {told : List Update} {c c' : Client}

theorem aside (h : Told e told c) (hc : Aside c c') (hsetting : c'.setting = c.setting) : Told e told c' where
  mirrors := by
    obtain ⟨old, hold⟩ := h.mirrors
    exact ⟨old, hold.of_eq hc.chip hc.historyRows⟩
  cached v hv := by
    rw [hc.cached] at hv
    rw [hc.scrollOffset]
    exact h.cached v hv
  live v hv := by
    rw [hc.liveCached] at hv
    exact h.live v hv
  modes bytes hout := (congrArg Prod.fst hsetting).trans (h.modes bytes hout)

theorem jump (h : Told e told c) (offset : UInt32) : Told e told (c.jump offset) where
  mirrors := by
    obtain ⟨old, hold⟩ := h.mirrors
    exact ⟨old, hold.of_eq rfl rfl⟩
  cached v hv := by cases hv
  live v hv := by cases hv
  modes := h.modes

theorem send (h : Told e told c) (frame : Frame) : Told e told ((Client.send frame).exec c).2 :=
  h.aside (.send c frame) (setting_send frame c rfl)

theorem ensureSnapshots (h : Told e told c) : Told e told c.ensureSnapshots := by
  unfold Client.ensureSnapshots
  by_cases hsome : (c.cached.isSome && c.liveCached.isSome) = true
  · rw [if_pos hsome]
    exact h
  rw [if_neg hsome]
  obtain ⟨old, hold⟩ := h.mirrors
  have hnew := hold.ingest
  have hview := hnew.viewed rfl c.scrollOffset
  refine ⟨⟨_, hnew.takeSnapshot.of_eq rfl rfl⟩, ?_, ?_, h.modes⟩
  · rintro v ⟨⟩
    exact (undamaged_mark _ _).trans hview
  · rintro v ⟨⟩
    exact hnew.screen.agree.undamaged.symm

/-- After output, whatever is taken of the engine to answer it. -/
theorem hear {bytes : List UInt8}
    (hmirrors : ∃ old, Mirrors ((told.foldl VtEngine.update e).feed bytes) old c) :
    Told e (told ++ [Update.feed bytes]) ({ c with modes := c.chip.modeState }.dropViews) := by
  have hengine : (told ++ [Update.feed bytes]).foldl VtEngine.update e =
      (told.foldl VtEngine.update e).feed bytes := by
    rw [List.foldl_append]
    rfl
  rw [← hengine] at hmirrors
  obtain ⟨old, hold⟩ := hmirrors
  refine ⟨⟨old, hold.of_eq rfl rfl⟩, ?_, ?_, fun _ _ => ?_⟩
  · rintro v ⟨⟩
  · rintro v ⟨⟩
  exact hold.screen.agree.modeState.symm

theorem keeps_mirrors_reply {r : VtEngine} : Op.Keeps (fun c => ∃ old, Mirrors r old c) reply := by
  refine Op.Keeps.bind ?_ fun replies => ?_
  · rintro c ⟨old, hold⟩
    exact ⟨old, hold.takeReplies⟩
  refine Op.Keeps.ite (fun _ => Op.Keeps.pure _) fun _ => ?_
  rintro c ⟨old, hold⟩
  have haside := Aside.send c (.data replies)
  exact ⟨old, hold.of_eq haside.chip haside.historyRows⟩

theorem receive (h : Told e told c) {fed n : Nat} {frame : Frame}
    (hrun : (Client.receive fed frame).exec c = (.ok n, c')) : Told e (told ++ news frame) c' := by
  by_cases hdata : frame.isData = true
  · cases frame with
    | data bytes =>
      rw [Client.receive, Op.exec_modify_bind] at hrun
      obtain ⟨_, c₁, hreply, hrest⟩ := Op.exec_bind_eq_ok.mp hrun
      rw [Op.exec_modify_bind] at hrest
      obtain rfl := (Prod.mk.inj hrest).2
      obtain ⟨old, hold⟩ := h.mirrors
      have hkept := keeps_mirrors_reply (c.feed bytes) (hold.feed bytes)
      rw [hreply] at hkept
      exact hear hkept
    | _ => cases hdata
  · have haside := Aside.receive fed (eq_false_of_ne_true hdata) c
    have hsetting := setting_receive fed (eq_false_of_ne_true hdata) c rfl
    rw [hrun] at haside hsetting
    have hnews : news frame = [] := by
      cases frame with
      | data bytes => exact absurd rfl hdata
      | _ => rfl
    rw [hnews, List.append_nil]
    exact h.aside haside hsetting

theorem receiveAll (h : Told e told c) {fed n : Nat} {frames : List Frame}
    (hrun : (Client.receiveAll fed frames).exec c = (.ok n, c')) :
    Told e (told ++ frames.flatMap news) c' := by
  induction frames generalizing fed told c with
  | nil =>
    obtain rfl := (Prod.mk.inj hrun).2
    rwa [List.flatMap_nil, List.append_nil]
  | cons frame frames ih =>
    rw [Client.receiveAll] at hrun
    obtain ⟨fed', c₁, hone, hrest⟩ := Op.exec_bind_eq_ok.mp hrun
    rw [List.flatMap_cons, ← List.append_assoc]
    exact ih (h.receive hone) hrest

end Told

-- ---------------------------------------------------------------------------
-- A pump that goes through
-- ---------------------------------------------------------------------------

theorem decoder_receiveAll {d : Decoder} (fed : Nat) (frames : List Frame) :
    Op.Keeps (fun c => c.decoder = d) (receiveAll fed frames) := by
  have hsend (frame : Frame) : Op.Keeps (fun c : Client => c.decoder = d) (send frame) :=
    fun c h => (Aside.send c frame).decoder.trans h
  induction frames generalizing fed with
  | nil => exact Op.Keeps.pure _
  | cons frame frames ih =>
    refine Op.Keeps.bind ?_ fun fed => ih fed
    by_cases hdata : frame.isData = true
    · cases frame with
      | data bytes =>
        refine Op.Keeps.bind (Op.Keeps.modify fun _ h => h) fun _ => ?_
        refine Op.Keeps.bind ?_ fun _ => Op.Keeps.bind (Op.Keeps.modify fun _ h => h) fun _ => Op.Keeps.pure _
        refine Op.Keeps.bind (fun _ h => h) fun replies => ?_
        exact Op.Keeps.ite (fun _ => Op.Keeps.pure _) fun _ => hsend _
      | _ => cases hdata
    · exact fun c h => (Aside.receive fed (eq_false_of_ne_true hdata) c).decoder.trans h

theorem Told.readLoop {e : VtEngine} {told : List Update} {c c' : Client} (h : Told e told c)
    {fed n : Nat} {reads : List Read} (hrun : (Client.readLoop fed reads).exec c = (.ok n, c')) :
    Told e (told ++ (heard c.decoder reads).flatMap news) c' := by
  induction reads generalizing fed told c with
  | nil =>
    obtain rfl := (Prod.mk.inj hrun).2
    rwa [heard, List.flatMap_nil, List.append_nil]
  | cons read reads ih =>
    have hrest : Told e told { c with stream := { c.stream with reads } } := h.aside { Aside.refl c with } rfl
    cases read with
    | eof | wouldBlock =>
      obtain rfl := (Prod.mk.inj hrun).2
      simpa [heard] using hrest
    | failed => cases hrun
    | data bytes =>
      rw [Client.readLoop, Op.exec_modify_bind] at hrun
      unfold heard
      by_cases hempty : (bytes.take bufLen).isEmpty = true
      · rw [if_pos hempty] at hrun ⊢
        obtain rfl := (Prod.mk.inj hrun).2
        rwa [List.flatMap_nil, List.append_nil]
      rw [if_neg hempty] at hrun ⊢
      obtain ⟨frames, c₁, hdecode, hrun⟩ := Op.exec_bind_eq_ok.mp hrun
      obtain ⟨fed', c₂, hall, hloop⟩ := Op.exec_bind_eq_ok.mp hrun
      have hpushed : (decode (bytes.take bufLen)).exec { c with stream := { c.stream with reads } } =
          ((c.decoder.pushKeeping (bytes.take bufLen)).1.mapError .attach,
            { c with
              stream := { c.stream with reads }
              decoder := (c.decoder.pushKeeping (bytes.take bufLen)).2 }) := rfl
      rw [hpushed] at hdecode
      rcases hpush : c.decoder.pushKeeping (bytes.take bufLen) with ⟨err | fs, d⟩
      · rw [hpush] at hdecode
        cases hdecode
      rw [hpush] at hdecode
      obtain ⟨hframes, rfl⟩ := Prod.mk.inj hdecode
      obtain rfl := Except.ok.inj hframes
      have hread : Told e told { c with stream := { c.stream with reads }, decoder := d } := {
        hrest with mirrors := hrest.mirrors.imp fun _ hold => hold.of_eq rfl rfl }
      have hdecoder := decoder_receiveAll (d := d) fed fs
        { c with stream := { c.stream with reads }, decoder := d } rfl
      rw [hall] at hdecoder
      have htold := ih (hread.receiveAll hall) hloop
      rw [hdecoder] at htold
      rwa [List.flatMap_append, ← List.append_assoc]

theorem ensureSnapshots_some (c : Client) :
    ∃ v w, c.ensureSnapshots.cached = some v ∧ c.ensureSnapshots.liveCached = some w := by
  unfold ensureSnapshots
  by_cases hsome : (c.cached.isSome && c.liveCached.isSome) = true
  · rw [if_pos hsome]
    rw [Bool.and_eq_true, Option.isSome_iff_exists, Option.isSome_iff_exists] at hsome
    obtain ⟨⟨v, hv⟩, w, hw⟩ := hsome
    exact ⟨v, w, hv, hw⟩
  · rw [if_neg hsome]
    exact ⟨_, _, rfl, rfl⟩

theorem scrollOffset_ensureSnapshots (c : Client) : c.ensureSnapshots.scrollOffset = c.scrollOffset := by
  unfold ensureSnapshots
  split
  case isTrue => rfl
  case isFalse => rfl

/-- A pump that goes through has told the engine what the frames it came to say. -/
theorem Told.pump {e : VtEngine} {told : List Update} {c c' : Client} (h : Told e told c) {n : Nat}
    (hrun : Client.pump.exec c = (.ok n, c')) :
    Told e (told ++ (heard c.decoder c.stream.reads).flatMap news) c' := by
  rw [Client.pump] at hrun
  obtain ⟨_, c₁, hflush, hrun⟩ := Op.exec_bind_eq_ok.mp hrun
  rw [Op.exec_get_bind] at hrun
  obtain ⟨fed, c₂, hloop, hrun⟩ := Op.exec_bind_eq_ok.mp hrun
  obtain ⟨_, c₃, hgrant, hrun⟩ := Op.exec_bind_eq_ok.mp hrun
  obtain rfl := (Prod.mk.inj hrun).2
  have hflushed := Aside.flushOutbox c
  have hsetting := setting_flushOutbox c rfl
  rw [hflush] at hflushed hsetting
  have hreads := (flushOutbox_ok hflush).2
  have hread := (h.aside hflushed hsetting).readLoop hloop
  rw [hflushed.decoder, hreads] at hread
  have hgranted := Aside.replenish c₂ fed
  have hkept := setting_replenish fed c₂ rfl
  rw [hgrant] at hgranted hkept
  exact hread.aside hgranted hkept

theorem Told.sendInput {e : VtEngine} {told : List Update} {c : Client} (h : Told e told c)
    (bytes : List UInt8) : Told e told ((Client.sendInput bytes).exec c).2 := by
  unfold Client.sendInput
  rw [Op.exec_get_bind]
  by_cases hdead : (!c.alive) = true
  · rw [Op.exec_guard_pos hdead]
    exact h
  · rw [Op.exec_guard_neg hdead, Op.exec_modify_bind, Op.exec_modify_bind]
    have hcount : Aside (c.followLive)
        { c.followLive with bytesSent := min (c.followLive.bytesSent + bytes.length) Kernel.u64Max } :=
      { Aside.refl _ with }
    exact ((h.jump 0).aside hcount rfl).send _

theorem Told.add {e : VtEngine} {told : List Update} {c : Client} {u : Update} (h : Told e told c)
    (hsame : (told.foldl VtEngine.update e).update u = told.foldl VtEngine.update e)
    (hspoken : ∀ bytes, u ≠ .feed bytes) : Told e (told ++ [u]) c := by
  have hengine : (told ++ [u]).foldl VtEngine.update e = told.foldl VtEngine.update e := by
    rw [List.foldl_append]
    exact hsame
  refine ⟨?_, ?_, ?_, fun bytes hmem => ?_⟩
  · rw [hengine]
    exact h.mirrors
  · rw [hengine]
    exact h.cached
  · rw [hengine]
    exact h.live
  · rw [hengine]
    rcases List.mem_append.mp hmem with hmem | hmem
    · exact h.modes bytes hmem
    · exact absurd (List.mem_singleton.mp hmem).symm (hspoken bytes)

theorem exec_resize_error {c : Client} {cols rows : UInt16} {err : Vt.Error}
    (hsize : c.chip.resize cols rows = .error err) (pxW pxH : UInt16) :
    (Client.resize cols rows pxW pxH).exec c = (.error (.chip err), c.jump c.scrollOffset) := by
  have hjumped : (c.jump c.scrollOffset).chip.resize cols rows = .error err := hsize
  unfold Client.resize
  rw [Op.exec_modify_bind, Op.exec_get_bind, Op.exec_bind, Op.exec_mapError, Op.exec_lift, hjumped]
  rfl

theorem exec_resize_ok {c : Client} {cols rows : UInt16} {chip : VtEngine}
    (hsize : c.chip.resize cols rows = .ok chip) (pxW pxH : UInt16) :
    (Client.resize cols rows pxW pxH).exec c =
      (Client.send (.resize cols rows pxW pxH)).exec { c.jump c.scrollOffset with chip } := by
  have hjumped : (c.jump c.scrollOffset).chip.resize cols rows = .ok chip := hsize
  unfold Client.resize
  rw [Op.exec_modify_bind, Op.exec_get_bind, Op.exec_bind, Op.exec_mapError, Op.exec_lift, hjumped]
  dsimp only [Except.mapError]
  rw [Op.exec_modify_bind]

theorem Told.resized {e : VtEngine} {told : List Update} {c : Client} (h : Told e told c)
    {cols rows : UInt16} {chip : VtEngine} (hsize : c.chip.resize cols rows = .ok chip) :
    Told e (told ++ [.resize cols rows]) { c.jump c.scrollOffset with chip } := by
  have hengine : (told ++ [Update.resize cols rows]).foldl VtEngine.update e =
      (told.foldl VtEngine.update e).update (.resize cols rows) := by
    rw [List.foldl_append]
    rfl
  have hjump := h.jump c.scrollOffset
  obtain ⟨old, hold⟩ := hjump.mirrors
  obtain ⟨r, hr, hmodes, hnew⟩ :=
    hold.resize (show (c.jump c.scrollOffset).chip.resize cols rows = _ from hsize)
  rw [VtEngine.update, hr] at hengine
  refine ⟨⟨old, ?_⟩, ?_, ?_, fun bytes hmem => ?_⟩
  · rwa [hengine]
  · rintro v ⟨⟩
  · rintro v ⟨⟩
  · have hspoken : Update.feed bytes ∈ told := by simpa using hmem
    rw [hengine]
    exact (hjump.modes bytes hspoken).trans hmodes.symm

theorem Told.resize {e : VtEngine} {told : List Update} {c : Client} (h : Told e told c)
    (cols rows pxW pxH : UInt16) :
    Told e (told ++ [.resize cols rows]) ((Client.resize cols rows pxW pxH).exec c).2 := by
  cases hsize : c.chip.resize cols rows with
  | error err =>
    rw [exec_resize_error hsize]
    refine (h.jump c.scrollOffset).add ?_ fun bytes hfeed => by cases hfeed
    rw [VtEngine.update, VtEngine.resize_fails_alike hsize]
    rfl
  | ok chip =>
    rw [exec_resize_ok hsize]
    exact (h.resized hsize).send _

end Client

namespace Presenter

-- ---------------------------------------------------------------------------
-- Runs
-- ---------------------------------------------------------------------------

def hears (p : Presenter) : Call → List Update
  | .pump => (Client.heard p.client.decoder p.client.stream.reads).flatMap Client.news
  | .resize cols rows _ _ => [.resize cols rows]
  | _ => []

def Works (p : Presenter) (call : Call) : Prop :=
  call = .pump → (Client.pump.exec p.client).1.isOk = true

theorem told_after {e : VtEngine} {told : List Update} {p : Presenter} (h : p.client.Told e told)
    {call : Call} (hworks : p.Works call) : (p.after call).client.Told e (told ++ p.hears call) := by
  have hstill {c : Client} (hc : c.Told e told) : c.Told e (told ++ []) := by rwa [List.append_nil]
  cases call with
  | pump =>
    have hok := hworks rfl
    rcases hrun : Client.pump.exec p.client with ⟨err | n, c⟩
    · rw [hrun] at hok
      cases hok
    · have htold := h.pump hrun
      unfold after hears
      rwa [hrun]
  | scrollLines delta => exact hstill (h.jump _)
  | sendInput bytes => exact hstill (h.sendInput bytes)
  | followLive => exact hstill (h.jump _)
  | resize cols rows pxW pxH => exact h.resize cols rows pxW pxH
  | cellCodepoint col row | cursorCell | liveCodepoint col row | snapshot => exact hstill h.ensureSnapshots

theorem told_run {e : VtEngine} {told : List Update} {p : Presenter} (h : p.client.Told e told)
    {calls : List Call} (hworks : AllAlong after Works p calls) :
    (calls.foldl after p).client.Told e (told ++ along after hears p calls) := by
  induction calls generalizing p told with
  | nil => rwa [along, List.append_nil]
  | cons call calls ih =>
    rw [along, ← List.append_assoc]
    exact ih (told_after h hworks.1) hworks.2

theorem told_new (stream : Stream) (surface : HostSurface) (chip : VtEngine) :
    (Client.new stream surface chip).Told chip [] where
  mirrors := ⟨[], rfl, ⟨.refl chip.screen, rfl⟩, (rtake_of_length_le (Nat.zero_le _)).symm⟩
  cached v hv := by cases hv
  live v hv := by cases hv
  modes bytes hmem := by simp at hmem

theorem told_connect {stream : Stream} {surface : HostSurface} {sessionId : Option UInt64} {client : Client}
    (hconnect : Client.connectSession stream surface sessionId = .ok client) :
    client.surface = surface ∧ ∃ chip, VtEngine.new surface.cols surface.rows = .ok chip ∧
      client.Told (Client.themed chip surface.colors) [] := by
  unfold Client.connectSession at hconnect
  cases hchip : VtEngine.new surface.cols surface.rows with
  | error err =>
    rw [hchip] at hconnect
    cases hconnect
  | ok chip =>
    rw [hchip] at hconnect
    dsimp only [Except.mapError, bind, Except.bind] at hconnect
    have hnew := told_new stream surface (Client.themed chip surface.colors)
    have hsetting := Client.setting_greet sessionId
      (Client.new stream surface (Client.themed chip surface.colors)) rfl
    have hgreeted := hnew.aside (.greet _ sessionId) hsetting
    rcases hrun : (Client.greet sessionId).exec
      (Client.new stream surface (Client.themed chip surface.colors)) with ⟨err | _, c⟩
    · rw [hrun] at hconnect
      cases hconnect
    · rw [hrun] at hconnect hgreeted hsetting
      obtain rfl := Except.ok.inj hconnect
      exact ⟨congrArg Prod.snd hsetting, chip, rfl, hgreeted⟩

/-- Where every pump goes through, the presenter shows what the bytes of the session make of an
engine that was never taken from: its newest rows and its grid, and its modes once there has been
output. -/
theorem shows_told {stream : Stream} {surface : HostSurface} {sessionId : Option UInt64} {client : Client}
    (hconnect : Client.connectSession stream surface sessionId = .ok client) {chip : VtEngine}
    (hchip : VtEngine.new surface.cols surface.rows = .ok chip) {calls : List Call}
    (hworks : AllAlong after Works (new client) calls) :
    let p := calls.foldl after (new client)
    let told := along after hears (new client) calls
    let r := told.foldl VtEngine.update (Client.themed chip surface.colors)
    (∃ v, p.client.snapshot.1 = .ok v ∧ v.undamaged = viewed r p.client.scrollOffset) ∧
      (∀ col row, (p.client.liveCodepoint col row).1 =
        ((r.snapshot.1.cell col row).map PodCell.codepoint).getD 0) ∧
      ∀ bytes, Update.feed bytes ∈ told → p.client.modes = r.modeState := by
  intro p told r
  obtain ⟨-, chip', hchip', hfirst⟩ := told_connect hconnect
  obtain rfl := Except.ok.inj (hchip.symm.trans hchip')
  have htold : p.client.Told (Client.themed chip surface.colors) told :=
    told_run hfirst hworks
  have hview := htold.ensureSnapshots
  obtain ⟨v, w, hv, hw⟩ := p.client.ensureSnapshots_some
  refine ⟨⟨v, ?_, ?_⟩, fun col row => ?_, htold.modes⟩
  · simp only [Client.snapshot, hv]
  · have hshown := hview.cached v hv
    rwa [Client.scrollOffset_ensureSnapshots] at hshown
  · rw [← PodGrid.codepoint_of_undamaged (hview.live w hw)]
    simp only [Client.liveCodepoint, hw]
    rfl

/-- Two letters that are read in two turns, the viewport moved in between. -/
theorem shows_told_twoLetters :
    let client := (Client.connectSession twoLetters small none).toOption.get (by decide)
    let calls := [Call.pump, .snapshot, .resize 3 2 0 0, .pump, .liveCodepoint 0 1]
    let chip := (VtEngine.new 2 2).toOption.get rfl
    let p := calls.foldl after (new client)
    let r := (along after hears (new client) calls).foldl VtEngine.update chip
    (∃ v, p.client.snapshot.1 = .ok v ∧ v.undamaged = viewed r p.client.scrollOffset) ∧
      (∀ col row, (p.client.liveCodepoint col row).1 =
        ((r.snapshot.1.cell col row).map PodCell.codepoint).getD 0) ∧
      ∀ bytes, Update.feed bytes ∈ along after hears (new client) calls → p.client.modes = r.modeState := by
  intro client calls chip
  have hconnect : Client.connectSession twoLetters small none = .ok client := ok_get _
  have hquiet {p : Presenter} {call : Call} (hne : call ≠ .pump) : p.Works call :=
    fun hpump => absurd hpump hne
  have hworks : AllAlong after Works (new client) calls :=
    ⟨fun _ => by decide +kernel, hquiet (by decide), hquiet (by decide), fun _ => by decide +kernel,
      hquiet (by decide), trivial⟩
  exact shows_told hconnect rfl hworks

end Presenter

end Rill.Host
