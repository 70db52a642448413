import Rill.Host.Views
import Rill.Lib.Runs

/-!
# Frames

The grids a presenter takes one after the other. Whoever first asks for a view
takes the engine's damage with it, and a pump that drops the view before the
presenter has taken it drops that damage too.
-/

namespace Rill.Host

open Lib Attach Vt

inductive Call
  | pump
  | scrollLines (delta : Int32)
  | sendInput (bytes : List UInt8)
  | followLive
  | resize (cols rows pxW pxH : UInt16)
  | cellCodepoint (col row : UInt16)
  | cursorCell
  | liveCodepoint (col row : UInt16)
  | snapshot
  deriving DecidableEq, Repr

structure Presenter where
  client : Client
  taken : Option PodGrid

namespace Presenter

def new (client : Client) : Presenter := ⟨client, none⟩

/-- The presenter after a call, whatever the call answers. -/
def after (p : Presenter) : Call → Presenter
  | .pump => { p with client := (Client.pump.exec p.client).2 }
  | .scrollLines delta => { p with client := p.client.scrollLines delta }
  | .sendInput bytes => { p with client := ((Client.sendInput bytes).exec p.client).2 }
  | .followLive => { p with client := p.client.followLive }
  | .resize cols rows pxW pxH =>
    { p with client := ((Client.resize cols rows pxW pxH).exec p.client).2 }
  | .cellCodepoint col row => { p with client := (p.client.cellCodepoint col row).2 }
  | .cursorCell => { p with client := p.client.cursorCell.2 }
  | .liveCodepoint col row => { p with client := (p.client.liveCodepoint col row).2 }
  | .snapshot =>
    let (grid, client) := p.client.snapshot
    ⟨client, grid.toOption.or p.taken⟩

def Takes (p : Presenter) (call : Call) (p' : Presenter) : Prop := p.after call = p'

/-- A view that shows anything new is taken before a pump comes to more DATA. -/
def Heeds (p : Presenter) (call : Call) : Prop :=
  call = .pump → p.client.hearsData = true →
    ∀ v ∈ p.client.cached, ∀ g ∈ p.taken, Shows v g

-- ---------------------------------------------------------------------------
-- The invariant
-- ---------------------------------------------------------------------------

/-- What the presenter has not taken yet is in the cached view, or will be in the next. -/
structure Presents (p : Presenter) : Prop where
  sane : p.client.Sane
  both : p.client.cached.isSome = p.client.liveCached.isSome
  cached : ∀ v ∈ p.client.cached, p.client.Follows v ∧ ∀ g ∈ p.taken, Reports v g
  dropped : p.client.cached = none → ∀ g ∈ p.taken, p.client.Follows g

namespace Presents

variable {p : Presenter}

theorem of_jumped {c : Client} (hsane : c.Sane) (hjumped : c.viewportJumped = true)
    (hcached : c.cached = none) (hlive : c.liveCached = none) (taken : Option PodGrid) :
    Presents ⟨c, taken⟩ where
  sane := hsane
  both := by rw [hcached, hlive]
  cached v hv := by
    rw [hcached] at hv
    cases hv
  dropped _ _ _ := .inl hjumped

theorem ensureSnapshots (h : p.Presents) :
    Presents { p with client := p.client.ensureSnapshots } ∧
      ∃ v, p.client.ensureSnapshots.cached = some v := by
  unfold Client.ensureSnapshots
  by_cases hsome : (p.client.cached.isSome && p.client.liveCached.isSome) = true
  · rw [if_pos hsome]
    rw [Bool.and_eq_true, Option.isSome_iff_exists] at hsome
    exact ⟨h, hsome.1⟩
  have hnone : p.client.cached = none := by
    rw [← h.both, Bool.and_self] at hsome
    exact Option.not_isSome_iff_eq_none.mp hsome
  rw [if_neg hsome]
  have honward := (Client.Onward.refl h.sane).ingest
  dsimp only
  generalize p.client.ingest = c at honward
  have hframed : c.chip.screen.snapshot.2.Framed := { honward.sane.framed with }
  refine ⟨⟨{ honward.sane with framed := hframed }, rfl, ?_, nofun⟩, _, rfl⟩
  rintro v ⟨⟩
  refine ⟨?_, fun g hg => ?_⟩
  · by_cases hoff : c.scrollOffset = 0
    · rw [hoff, composeViewport_zero]
      refine .inr (.inr ⟨c.chip.screen.snapshot.2, .of_marks (.refl hframed), ?_⟩)
      cases c.viewportJumped with
      | true => exact ⟨rfl, rfl, fun _ _ => rfl⟩
      | false => exact ⟨rfl, rfl, fun _ _ => rfl⟩
    · exact .inr (.inl hoff)
  · refine Reports.mark fun hjumped => ?_
    obtain hjump | hoff | ⟨s, hcovers, hshows⟩ := honward.follows g (h.dropped hnone g hg)
    · rw [hjumped] at hjump
      cases hjump
    · exact .of_full (fullDamage_composeViewport honward.sane.inHistory hoff _)
    · by_cases hoff : c.scrollOffset = 0
      · rw [hoff, composeViewport_zero]
        exact Reports.of_covers hcovers hshows
      · exact .of_full (fullDamage_composeViewport honward.sane.inHistory hoff _)

theorem snapshot (h : p.Presents) : (p.after .snapshot).Presents ∧
    ∀ first ∈ p.taken, ∀ second ∈ (p.after .snapshot).taken, Reports second first := by
  obtain ⟨hensured, v, hv⟩ := h.ensureSnapshots
  obtain ⟨hfollows, hreports⟩ := hensured.cached v hv
  have hafter : p.after .snapshot = ⟨p.client.ensureSnapshots, some v⟩ := by
    simp only [after, Client.snapshot, hv]
    rfl
  rw [hafter]
  refine ⟨⟨hensured.sane, hensured.both, fun w hw => ?_, fun hnone => ?_⟩, ?_⟩
  · obtain rfl : v = w := Option.some.inj (hv.symm.trans hw)
    refine ⟨hfollows, ?_⟩
    rintro g ⟨⟩
    exact .of_shows (.refl v)
  · rw [hv] at hnone
    cases hnone
  · rintro first hfirst second ⟨⟩
    exact hreports first hfirst

theorem pump (h : p.Presents) (hheeds : p.Heeds .pump) : (p.after .pump).Presents := by
  have honward := Client.onward_pump p.client (.refl h.sane)
  obtain ⟨hcached, hlive⟩ | ⟨hcached, hlive⟩ := honward.views
  · refine ⟨honward.sane, ?_, fun v hv => ?_, fun hnone g hg => ?_⟩
    · exact (congrArg Option.isSome hcached).trans (h.both.trans (congrArg Option.isSome hlive).symm)
    · obtain ⟨hfollows, hreports⟩ := h.cached v (hcached ▸ hv)
      exact ⟨honward.follows v hfollows, hreports⟩
    · exact honward.follows g (h.dropped (hcached ▸ hnone) g hg)
  · refine ⟨honward.sane, ?_, fun v hv => ?_, fun _ g hg => honward.follows g ?_⟩
    · exact (congrArg Option.isSome hcached).trans (congrArg Option.isSome hlive).symm
    · have hnone : none = some v := hcached.symm.trans hv
      cases hnone
    cases hview : p.client.cached with
    | none => exact h.dropped hview g hg
    | some v =>
      have hhears : p.client.hearsData = true := by
        refine eq_true_of_ne_false fun hquiet => ?_
        have hsame := (Client.pump_views hquiet).1
        rw [hcached, hview] at hsame
        cases hsame
      exact (h.cached v hview).1.shows (hheeds rfl hhears v hview g hg)

theorem jump (h : p.Presents) {offset : UInt32} (hoff : InHistory p.client.historyRows offset) :
    Presents { p with client := p.client.jump offset } := by
  have hsane : (p.client.jump offset).Sane := ⟨h.sane.framed, h.sane.length_history, hoff⟩
  exact of_jumped hsane rfl rfl rfl p.taken

theorem aside (h : p.Presents) {c : Client} (hc : p.client.Aside c) :
    Presents { p with client := c } where
  sane := ((Client.Onward.refl h.sane).aside hc).sane
  both := by rw [hc.cached, hc.liveCached, h.both]
  cached v hv := by
    rw [hc.cached] at hv
    obtain ⟨hfollows, hreports⟩ := h.cached v hv
    exact ⟨((Client.Onward.refl h.sane).aside hc).follows v hfollows, hreports⟩
  dropped hnone g hg := by
    rw [hc.cached] at hnone
    exact ((Client.Onward.refl h.sane).aside hc).follows g (h.dropped hnone g hg)

theorem scrollLines (h : p.Presents) (delta : Int32) : (p.after (.scrollLines delta)).Presents := by
  refine h.jump ?_
  have hmax := h.sane.length_history
  unfold maxHistoryRows at hmax
  rw [InHistory, UInt32.toNat_ofNat']
  omega

theorem sendInput (h : p.Presents) (bytes : List UInt8) : (p.after (.sendInput bytes)).Presents := by
  unfold after Client.sendInput
  dsimp only
  rw [Op.exec_get_bind]
  by_cases hdead : (!p.client.alive) = true
  · rw [Op.exec_guard_pos hdead]
    exact h
  · rw [Op.exec_guard_neg hdead, Op.exec_modify_bind, Op.exec_modify_bind]
    have hjumped := h.jump (.zero _)
    have hcount : (p.client.jump 0).Aside
        { p.client.jump 0 with bytesSent := min (p.client.bytesSent + bytes.length) Kernel.u64Max } :=
      { Client.Aside.refl _ with }
    exact hjumped.aside (hcount.trans (.send _ _))

theorem resize (h : p.Presents) (cols rows pxW pxH : UInt16) :
    (p.after (.resize cols rows pxW pxH)).Presents := by
  have hjumped := h.jump h.sane.inHistory
  unfold after Client.resize
  dsimp only
  rw [Op.exec_modify_bind, Op.exec_get_bind, Op.exec_bind, Op.exec_mapError, Op.exec_lift]
  cases hsize : (p.client.jump p.client.scrollOffset).chip.resize cols rows with
  | error e => exact hjumped
  | ok chip =>
    have hframed := (VtEngine.covers_resize (VtEngine.resize_ok hsize)).framed
    have hsane : Client.Sane { p.client.jump p.client.scrollOffset with chip } :=
      ⟨hframed, h.sane.length_history, h.sane.inHistory⟩
    dsimp only [Except.mapError]
    rw [Op.exec_modify_bind]
    exact (of_jumped hsane rfl rfl rfl p.taken).aside (.send _ _)

theorem step (h : p.Presents) {call : Call} (hheeds : p.Heeds call) : (p.after call).Presents := by
  cases call with
  | pump => exact h.pump hheeds
  | scrollLines delta => exact h.scrollLines delta
  | sendInput bytes => exact h.sendInput bytes
  | followLive => exact h.jump (.zero _)
  | resize cols rows pxW pxH => exact h.resize cols rows pxW pxH
  | cellCodepoint col row => exact h.ensureSnapshots.1
  | cursorCell => exact h.ensureSnapshots.1
  | liveCodepoint col row => exact h.ensureSnapshots.1
  | snapshot => exact h.snapshot.1

theorem connect {stream : Daemon.Stream} {surface : HostSurface} {sessionId : Option UInt64}
    {client : Client} (h : Client.connectSession stream surface sessionId = .ok client) :
    (Presenter.new client).Presents := by
  unfold Client.connectSession at h
  cases hchip : VtEngine.new surface.cols surface.rows with
  | error e =>
    rw [hchip] at h
    cases h
  | ok chip =>
    rw [hchip] at h
    dsimp only [Except.mapError, bind, Except.bind] at h
    have hframed := VtEngine.framed_new (VtEngine.new_ok hchip)
    have hthemed : (Client.themed chip surface.colors).screen.Framed := by
      cases surface.colors with
      | none => exact hframed
      | some colors => exact { hframed with }
    generalize Client.themed chip surface.colors = chip at hthemed h
    have hsane : (Client.new stream surface chip).Sane := ⟨hthemed, Nat.zero_le _, .zero _⟩
    have hnew := of_jumped hsane rfl rfl rfl none
    have hgreet := Client.Aside.greet (Client.new stream surface chip) sessionId
    rcases hrun : (Client.greet sessionId).exec (Client.new stream surface chip) with ⟨e | _, c⟩
    · rw [hrun] at h
      cases h
    · rw [hrun] at h hgreet
      obtain rfl := Except.ok.inj h
      exact hnew.aside hgreet

end Presents

/-- It is enough to take a grid before each pump. -/
theorem heeds_snapshot (p : Presenter) (call : Call) : (p.after .snapshot).Heeds call := by
  intro _ _ v hv g hg
  have hview : p.client.ensureSnapshots.cached = some v := hv
  have htaken : (p.after .snapshot).taken = some v := by
    simp only [after, Client.snapshot, hview]
    rfl
  obtain rfl : v = g := Option.some.inj (htaken.symm.trans hg)
  exact .refl v

/-- Where every view with news is taken before a pump comes to more DATA, a grid that is
taken and not reported as a whole has the rows of the one before, but for those it reports. -/
theorem frames_report {stream : Daemon.Stream} {surface : HostSurface} {sessionId : Option UInt64}
    {client : Client} (hconnect : Client.connectSession stream surface sessionId = .ok client)
    {p : Presenter} (hrun : Runs Takes Heeds (new client) p) {first second : PodGrid}
    (hfirst : p.taken = some first) (hsecond : (p.after .snapshot).taken = some second) :
    Reports second first := by
  have hstep : ∀ (p : Presenter) (call : Call) (p' : Presenter), p.Presents → p.Heeds call →
      p.Takes call p' → p'.Presents := by
    rintro p call _ h hheeds rfl
    exact h.step hheeds
  have hp : p.Presents := hrun.invariant (fun p call p' => hstep p call p') (.connect hconnect)
  exact hp.snapshot.2 first hfirst second hsecond

/-- A letter on the first row, and after a pause one on the second. -/
def twoLetters : Daemon.Stream :=
  ⟨[.data (Frame.data [0x78]).wire, .wouldBlock, .data (Frame.data [0x0d, 0x0a, 0x79]).wire], [], []⟩

def small : HostSurface := ⟨2, 2, none⟩

theorem ok_get {o : Except Error Client} (h : o.toOption.isSome = true) :
    o = .ok (o.toOption.get h) := by
  cases o with
  | error e => cases h
  | ok client => rfl

/-- The grid before each of the letters, and the one after the first. -/
theorem frames_report_twoLetters :
    let client := (Client.connectSession twoLetters small none).toOption.get (by decide)
    let p := [Call.snapshot, .pump].foldl after (new client)
    Reports ((p.after .snapshot).taken.get (by decide +kernel)) (p.taken.get (by decide)) := by
  intro client p
  have hconnect : Client.connectSession twoLetters small none = .ok client := ok_get _
  have hrun : Runs Takes Heeds (new client) p :=
    (Relation.ReflTransGen.refl.tail ⟨.snapshot, nofun, rfl⟩).tail ⟨.pump, heeds_snapshot _ _, rfl⟩
  exact frames_report hconnect hrun (Option.some_get _).symm (Option.some_get _).symm

/-- A look at a cell between the two letters takes the first one's damage with it. -/
theorem probe_hides :
    ∃ client ∈ (Client.connectSession twoLetters small none).toOption,
      let p := [Call.snapshot, .pump, .cellCodepoint 0 0, .pump].foldl after (new client)
      ∃ first ∈ p.taken, ∃ second ∈ (p.after .snapshot).taken,
        second.fullDamage = false ∧ second.damageRow0 = 1 ∧ second.damageRow1 = 1 ∧
          second.row 0 ≠ first.row 0 := by
  decide +kernel

end Presenter

end Rill.Host
