import Rill.Host.Client

/-!
# Views

The next view that is made reports what it does not show of a grid, as long as
the engine's damage covers what has changed since it showed that grid. A pump
keeps this up, and drops the views in the cache when it comes to DATA.
-/

namespace Rill.Host

open Lib Attach Vt
open Daemon (Stream Read)

-- ---------------------------------------------------------------------------
-- Grids
-- ---------------------------------------------------------------------------

structure Shows (v g : PodGrid) : Prop where
  cols : v.cols = g.cols
  rows : v.rows = g.rows
  row : ∀ r, r < v.rows.toNat → v.row r = g.row r

theorem Shows.refl (g : PodGrid) : Shows g g := ⟨rfl, rfl, fun _ _ => rfl⟩

theorem Shows.trans {u v g : PodGrid} (h : Shows u v) (k : Shows v g) : Shows u g where
  cols := h.cols.trans k.cols
  rows := h.rows.trans k.rows
  row r hr := (h.row r hr).trans (k.row r (h.rows ▸ hr))

/-- A grid that is not reported as a whole has the size of `g`, and the rows it does not
report are those of `g`. -/
def Reports (v g : PodGrid) : Prop :=
  v.fullDamage = false → v.cols = g.cols ∧ v.rows = g.rows ∧
    ∀ r, r < v.rows.toNat → ¬ (v.damageRow0.toNat ≤ r ∧ r ≤ v.damageRow1.toNat) → v.row r = g.row r

theorem Reports.of_shows {v g : PodGrid} (h : Shows v g) : Reports v g :=
  fun _ => ⟨h.cols, h.rows, fun r hr _ => h.row r hr⟩

theorem Reports.of_full {v g : PodGrid} (h : v.fullDamage = true) : Reports v g := by
  intro hfull
  rw [h] at hfull
  cases hfull

theorem Reports.mark {v g : PodGrid} {jumped : Bool} (h : jumped = false → Reports v g) :
    Reports (markFullIfViewportJumped v jumped) g := by
  cases jumped with
  | true => exact .of_full rfl
  | false => exact h rfl

theorem Reports.of_covers {s t : Screen} {g : PodGrid} (h : VtEngine.Covers s t)
    (hg : Shows s.snapshot.1 g) : Reports t.snapshot.1 g := by
  intro hfull
  obtain hall | hmarks := h.marks
  · rw [show t.fullDamage = false from hfull] at hall
    cases hall
  · refine ⟨hmarks.cols.trans hg.cols, hmarks.rows.trans hg.rows, fun r hr hout => ?_⟩
    have hundamaged : ¬ t.Damaged r := by
      rintro (hall | hrange)
      · rw [show t.fullDamage = false from hfull] at hall
        cases hall
      · exact hout hrange
    have hrows : t.snapshot.1.rows = s.snapshot.1.rows := hmarks.rows
    exact (VtEngine.row_snapshot hmarks hundamaged).trans (hg.row r (hrows ▸ hr))

namespace Client

-- ---------------------------------------------------------------------------
-- The next view
-- ---------------------------------------------------------------------------

/-- What the client keeps for its views. -/
structure Sane (c : Client) : Prop where
  framed : c.chip.screen.Framed
  length_history : c.historyRows.length ≤ maxHistoryRows
  inHistory : InHistory c.historyRows c.scrollOffset

/-- The engine's damage covers what has changed since it showed `g`. -/
def Tracks (c : Client) (g : PodGrid) : Prop :=
  ∃ s, VtEngine.Covers s c.chip.screen ∧ Shows s.snapshot.1 g

/-- The next view made will report what it does not show of `g`. -/
def Follows (c : Client) (g : PodGrid) : Prop :=
  c.viewportJumped = true ∨ c.scrollOffset ≠ 0 ∨ c.Tracks g

theorem Follows.shows {c : Client} {v g : PodGrid} (h : c.Follows v) (hg : Shows v g) : c.Follows g := by
  obtain hjumped | hoff | ⟨s, hcovers, hs⟩ := h
  · exact .inl hjumped
  · exact .inr (.inl hoff)
  · exact .inr (.inr ⟨s, hcovers, hs.trans hg⟩)

/-- What the views and the decoder are made of is left alone. -/
structure Aside (c c' : Client) : Prop where
  chip : c'.chip = c.chip
  historyRows : c'.historyRows = c.historyRows
  scrollOffset : c'.scrollOffset = c.scrollOffset
  viewportJumped : c'.viewportJumped = c.viewportJumped
  cached : c'.cached = c.cached
  liveCached : c'.liveCached = c.liveCached
  decoder : c'.decoder = c.decoder

namespace Aside

theorem refl (c : Client) : Aside c c := ⟨rfl, rfl, rfl, rfl, rfl, rfl, rfl⟩

theorem trans {c c' c'' : Client} (h : Aside c c') (k : Aside c' c'') : Aside c c'' where
  chip := k.chip.trans h.chip
  historyRows := k.historyRows.trans h.historyRows
  scrollOffset := k.scrollOffset.trans h.scrollOffset
  viewportJumped := k.viewportJumped.trans h.viewportJumped
  cached := k.cached.trans h.cached
  liveCached := k.liveCached.trans h.liveCached
  decoder := k.decoder.trans h.decoder

theorem violate (c : Client) : Aside c c.violate := by
  unfold Client.violate
  split
  case isTrue => exact { refl c with }
  case isFalse => exact refl c

theorem flushOutbox (c : Client) : Aside c (Client.flushOutbox.exec c).2 := by
  rw [Client.flushOutbox, Op.exec_get_bind]
  rcases Daemon.Client.writeLoop c.stream.writes c.outbox c.stream.sent with ⟨ok, writes, outbox, sent⟩
  dsimp only
  rw [Op.exec_modify_bind]
  cases ok with
  | true => exact { refl c with }
  | false => exact { refl c with }

theorem send (c : Client) (frame : Frame) : Aside c ((Client.send frame).exec c).2 := by
  have hkeeps : Op.Keeps (Aside c) (Client.send frame) := by
    refine Op.Keeps.bind (Op.Keeps.modify fun c' h => ?_) fun _ => ?_
    · split
      case isTrue => exact h
      case isFalse => exact h.trans (violate c')
    refine Op.Keeps.bind (Op.Keeps.mapError _ (Op.Keeps.lift _)) fun bytes => ?_
    refine Op.Keeps.bind (Op.Keeps.modify fun c' h => h.trans { refl c' with }) fun _ => ?_
    exact fun c' h => h.trans (flushOutbox c')
  exact hkeeps c (refl c)

theorem grantCredit (c : Client) (n : UInt32) : Aside c ((Client.grantCredit n).exec c).2 := by
  have hcredit : Aside c { c with outstandingCredit := min (c.outstandingCredit + n.toNat) Kernel.u64Max } :=
    { refl c with }
  rw [Client.grantCredit, Op.exec_modify_bind]
  exact hcredit.trans (send _ _)

theorem greet (c : Client) (sessionId : Option UInt64) : Aside c ((Client.greet sessionId).exec c).2 := by
  have hkeeps : Op.Keeps (Aside c) (Client.greet sessionId) :=
    Op.Keeps.bind (fun c' h => h.trans (send c' _)) fun _ c' h => h.trans (grantCredit c' _)
  exact hkeeps c (refl c)

theorem replenish (c : Client) (fed : Nat) : Aside c ((Client.replenish fed).exec c).2 := by
  unfold Client.replenish
  split
  case isTrue => exact grantCredit c _
  case isFalse => exact refl c

theorem receive (fed : Nat) {frame : Frame} (h : frame.isData = false) (c : Client) :
    Aside c ((Client.receive fed frame).exec c).2 := by
  have hviolate : Op.Keeps (Aside c) (modify Client.violate : Op Client Error Unit) :=
    Op.Keeps.modify fun c' h => h.trans (violate c')
  have hkeeps : Op.Keeps (Aside c) (Client.receive fed frame) := by
    cases frame with
    | data bytes => cases h
    | exit status =>
      refine Op.Keeps.bind (Op.Keeps.modify fun c' h => ?_) fun _ => Op.Keeps.pure _
      have hdead : Aside c' { c' with alive := false, exitStatus := some status } := { refl c' with }
      exact (h.trans hdead).trans (violate _)
    | refused reason => exact hviolate.bind fun _ => Op.Keeps.throw _
    | _ => exact hviolate.bind fun _ => Op.Keeps.pure _
  exact hkeeps c (refl c)

end Aside

/-- What a step on the way through a pump does to the views. -/
structure Onward (c c' : Client) : Prop where
  sane : c'.Sane
  follows : ∀ g, c.Follows g → c'.Follows g
  views : c'.cached = c.cached ∧ c'.liveCached = c.liveCached ∨
    c'.cached = none ∧ c'.liveCached = none

namespace Onward

variable {c c' c'' : Client}

theorem refl (h : c.Sane) : Onward c c := ⟨h, fun _ => id, .inl ⟨rfl, rfl⟩⟩

theorem aside (h : Onward c c') (k : Aside c' c'') : Onward c c'' where
  sane := by
    refine ⟨?_, ?_, ?_⟩
    · rw [k.chip]
      exact h.sane.framed
    · rw [k.historyRows]
      exact h.sane.length_history
    · rw [k.historyRows, k.scrollOffset]
      exact h.sane.inHistory
  follows g hg := by
    unfold Follows Tracks
    rw [k.viewportJumped, k.scrollOffset, k.chip]
    exact h.follows g hg
  views := by
    rw [k.cached, k.liveCached]
    exact h.views

theorem dropViews (h : Onward c c') : Onward c c'.dropViews :=
  { h with sane := { h.sane with }, views := .inr ⟨rfl, rfl⟩ }

/-- The engine goes on to a state that reports what has changed, and history grows. -/
theorem advance (h : Onward c c') (hcovers : VtEngine.Covers c'.chip.screen c''.chip.screen)
    (hlen : c'.historyRows.length ≤ c''.historyRows.length)
    (hmax : c''.historyRows.length ≤ maxHistoryRows) (hoff : c''.scrollOffset = c'.scrollOffset)
    (hjumped : c''.viewportJumped = c'.viewportJumped) (hcached : c''.cached = c'.cached)
    (hlive : c''.liveCached = c'.liveCached) : Onward c c'' where
  sane := ⟨hcovers.framed, hmax, by
    rw [InHistory, hoff]
    exact Nat.le_trans h.sane.inHistory hlen⟩
  follows g hg := by
    unfold Follows Tracks
    rw [hjumped, hoff]
    obtain hjumped | hoff | ⟨s, hs, hshows⟩ := h.follows g hg
    · exact .inl hjumped
    · exact .inr (.inl hoff)
    · exact .inr (.inr ⟨s, hs.trans hcovers, hshows⟩)
  views := by
    rw [hcached, hlive]
    exact h.views

theorem decode (h : Onward c c') (bytes : List UInt8) : Onward c ((Client.decode bytes).exec c').2 :=
  h.advance (.of_marks (.refl h.sane.framed)) (Nat.le_refl _) h.sane.length_history rfl rfl rfl rfl

theorem ingest (h : Onward c c') : Onward c c'.ingest := by
  obtain ⟨hlen, hmax⟩ := ingestScrolled_mono h.sane.length_history c'.chip.takeScrolledOff.1
  exact h.advance (VtEngine.covers_update h.sane.framed .takeScrolledOff) hlen hmax rfl rfl rfl rfl

theorem takeReplies (h : Onward c c') : Onward c { c' with chip := c'.chip.takeReplies.2 } :=
  h.advance (VtEngine.covers_update h.sane.framed .takeReplies) (Nat.le_refl _) h.sane.length_history
    rfl rfl rfl rfl

theorem feed (h : Onward c c') (bytes : List UInt8) : Onward c (c'.feed bytes) := by
  have hchip : Onward c { c' with chip := c'.chip.feed bytes } :=
    h.advance (VtEngine.covers_update h.sane.framed (.feed bytes)) (Nat.le_refl _)
      h.sane.length_history rfl rfl rfl rfl
  have hfed := hchip.ingest
  -- The offset is in the history already.
  have hclamp : (c'.feed bytes).scrollOffset = { c' with chip := c'.chip.feed bytes }.ingest.scrollOffset := by
    have hin := hfed.sane.inHistory
    have hmax := hfed.sane.length_history
    unfold Client.feed clampOffset
    dsimp only
    generalize { c' with chip := c'.chip.feed bytes }.ingest = d at hin hmax ⊢
    unfold InHistory at hin
    have hlen : (UInt32.ofNat d.historyRows.length).toNat = d.historyRows.length := by
      rw [UInt32.toNat_ofNat']
      unfold maxHistoryRows at hmax
      omega
    refine if_pos (UInt32.le_iff_toNat_le.mpr ?_)
    omega
  exact hfed.aside ⟨rfl, rfl, hclamp, rfl, rfl, rfl, rfl⟩

end Onward

-- ---------------------------------------------------------------------------
-- A pump
-- ---------------------------------------------------------------------------

theorem onward_send {c : Client} (frame : Frame) : Op.Keeps (Onward c) (send frame) :=
  fun c' h => h.aside (.send c' frame)

theorem onward_reply {c : Client} : Op.Keeps (Onward c) reply := by
  refine Op.Keeps.bind (fun c' h => h.takeReplies) fun replies => ?_
  exact Op.Keeps.ite (fun _ => Op.Keeps.pure ()) fun _ => onward_send _

theorem onward_receive {c : Client} (fed : Nat) (frame : Frame) :
    Op.Keeps (Onward c) (receive fed frame) := by
  cases hdata : frame.isData with
  | false => exact fun c' h => h.aside (.receive fed hdata c')
  | true =>
    cases frame with
    | data bytes =>
      refine Op.Keeps.bind (Op.Keeps.modify fun c' h => h.feed bytes) fun _ => ?_
      refine Op.Keeps.bind onward_reply fun _ => ?_
      refine Op.Keeps.bind (Op.Keeps.modify fun c' h => ?_) fun _ => Op.Keeps.pure _
      have hmodes : Aside c' { c' with modes := c'.chip.modeState } := { Aside.refl c' with }
      exact (h.aside hmodes).dropViews
    | _ => cases hdata

theorem onward_receiveAll {c : Client} (fed : Nat) (frames : List Frame) :
    Op.Keeps (Onward c) (receiveAll fed frames) := by
  induction frames generalizing fed with
  | nil => exact Op.Keeps.pure fed
  | cons frame frames ih => exact (onward_receive fed frame).bind fun fed => ih fed

theorem onward_readLoop {c : Client} (fed : Nat) (reads : List Read) :
    Op.Keeps (Onward c) (readLoop fed reads) := by
  have hreads : ∀ reads, Op.Keeps (Onward c)
      (modify fun c => { c with stream := { c.stream with reads } } : Op Client Error Unit) :=
    fun reads => Op.Keeps.modify fun c' h => h.aside { Aside.refl c' with }
  induction reads generalizing fed with
  | nil => exact Op.Keeps.pure fed
  | cons r reads ih =>
    refine (hreads reads).bind fun _ => ?_
    cases r with
    | data bytes =>
      refine Op.Keeps.ite (fun _ => Op.Keeps.pure fed) fun _ => ?_
      refine Op.Keeps.bind (fun c' h => h.decode _) fun frames => ?_
      exact (onward_receiveAll fed frames).bind fun fed => ih fed
    | eof => exact Op.Keeps.pure fed
    | wouldBlock => exact Op.Keeps.pure fed
    | failed => exact Op.Keeps.throw _

theorem onward_pump {c : Client} : Op.Keeps (Onward c) pump := by
  refine Op.Keeps.bind (fun c' h => h.aside (.flushOutbox c')) fun _ => ?_
  refine Op.Keeps.bind Op.Keeps.get fun c' => ?_
  refine Op.Keeps.bind (onward_readLoop 0 _) fun fed => ?_
  exact Op.Keeps.bind (fun c' h => h.aside (.replenish c' fed)) fun _ => Op.Keeps.pure fed

-- ---------------------------------------------------------------------------
-- A pump that feeds nothing
-- ---------------------------------------------------------------------------

def goesOn : Frame → Bool
  | .refused _ => false
  | _ => true

/-- The frames that the reads of a pump bring. -/
def heard : Decoder → List Read → List Frame
  | _, [] => []
  | d, .data bytes :: reads =>
    if (bytes.take bufLen).isEmpty then []
    else match d.pushKeeping (bytes.take bufLen) with
      | (.ok frames, d) => frames ++ heard d reads
      | (.error _, _) => []
  | _, _ :: _ => []

/-- The next pump comes to a DATA frame. -/
def hearsData (c : Client) : Bool :=
  (Daemon.Client.writeLoop c.stream.writes c.outbox c.stream.sent).1 &&
    ((heard c.decoder c.stream.reads).takeWhile goesOn).any Frame.isData

theorem receive_ok {fed n : Nat} {frame : Frame} {c c' : Client}
    (h : (receive fed frame).exec c = (.ok n, c')) : goesOn frame = true := by
  cases frame with
  | refused reason => cases h
  | _ => rfl

theorem isData_of_refused {frame : Frame} (h : ¬ goesOn frame = true) : frame.isData = false := by
  cases frame with
  | refused reason => rfl
  | _ => exact absurd rfl h

theorem receiveAll_aside {fed : Nat} {frames : List Frame} {c : Client}
    (h : ∀ f ∈ frames.takeWhile goesOn, f.isData = false) :
    Aside c ((receiveAll fed frames).exec c).2 ∧
      ∀ n c', (receiveAll fed frames).exec c = (.ok n, c') → ∀ f ∈ frames, goesOn f = true := by
  induction frames generalizing fed c with
  | nil => exact ⟨.refl c, fun _ _ _ f hf => absurd hf List.not_mem_nil⟩
  | cons frame frames ih =>
    have hdata : frame.isData = false := by
      by_cases hgo : goesOn frame = true
      · refine h frame ?_
        rw [List.takeWhile_cons_of_pos hgo]
        exact List.mem_cons_self
      · exact isData_of_refused hgo
    have haside := Aside.receive fed hdata c
    rw [receiveAll, Op.exec_bind]
    rcases hrun : (receive fed frame).exec c with ⟨e | fed', c₁⟩
    · rw [hrun] at haside
      exact ⟨haside, fun _ _ hok => by cases hok⟩
    · rw [hrun] at haside
      have hgoes := receive_ok hrun
      rw [List.takeWhile_cons_of_pos hgoes] at h
      obtain ⟨hrest, hall⟩ := @ih fed' c₁ fun f hf => h f (List.mem_cons_of_mem _ hf)
      refine ⟨haside.trans hrest, fun n c' hok f hf => ?_⟩
      rcases List.mem_cons.mp hf with rfl | hf
      · exact hgoes
      · exact hall n c' hok f hf

theorem mem_takeWhile_append {p : α → Bool} {l₁ l₂ : List α} {a : α} (h : a ∈ l₁.takeWhile p) :
    a ∈ (l₁ ++ l₂).takeWhile p := by
  rw [List.takeWhile_append]
  split
  case isTrue hall => exact List.mem_append_left _ ((List.takeWhile_prefix p).subset h)
  case isFalse => exact h

theorem readLoop_views {fed : Nat} {reads : List Read} {c : Client}
    (h : ∀ f ∈ (heard c.decoder reads).takeWhile goesOn, f.isData = false) :
    ((readLoop fed reads).exec c).2.cached = c.cached ∧
      ((readLoop fed reads).exec c).2.liveCached = c.liveCached := by
  induction reads generalizing fed c with
  | nil => exact ⟨rfl, rfl⟩
  | cons r reads ih =>
    cases r with
    | eof => exact ⟨rfl, rfl⟩
    | wouldBlock => exact ⟨rfl, rfl⟩
    | failed => exact ⟨rfl, rfl⟩
    | data bytes =>
      rw [readLoop, Op.exec_modify_bind]
      unfold heard at h
      by_cases hempty : (bytes.take bufLen).isEmpty = true
      · rw [if_pos hempty]
        exact ⟨rfl, rfl⟩
      rw [if_neg hempty] at h ⊢
      have hdecode : ∀ c : Client, (decode (bytes.take bufLen)).exec c =
          ((c.decoder.pushKeeping (bytes.take bufLen)).1.mapError .attach,
            { c with decoder := (c.decoder.pushKeeping (bytes.take bufLen)).2 }) := fun _ => rfl
      rw [Op.exec_bind, hdecode]
      dsimp only
      rcases hpush : c.decoder.pushKeeping (bytes.take bufLen) with ⟨e | frames, d⟩
      · exact ⟨rfl, rfl⟩
      rw [hpush] at h
      obtain ⟨haside, hall⟩ := @receiveAll_aside fed frames
        { c with stream := { c.stream with reads }, decoder := d } fun f hf =>
          h f (mem_takeWhile_append hf)
      dsimp only [Except.mapError]
      rw [Op.exec_bind]
      rcases hrun : (receiveAll fed frames).exec { c with stream := { c.stream with reads }, decoder := d }
        with ⟨e | fed', c₂⟩
      · rw [hrun] at haside
        exact ⟨haside.cached, haside.liveCached⟩
      · rw [hrun] at haside
        have hgoes := hall _ _ hrun
        dsimp only at h
        rw [List.takeWhile_append_of_pos hgoes] at h
        have hdecoder : c₂.decoder = d := haside.decoder
        obtain ⟨hcached, hlive⟩ := @ih fed' c₂ fun f hf => h f (List.mem_append_right _ (hdecoder ▸ hf))
        exact ⟨hcached.trans haside.cached, hlive.trans haside.liveCached⟩

theorem flushOutbox_ok {c c' : Client} (h : flushOutbox.exec c = (.ok (), c')) :
    (Daemon.Client.writeLoop c.stream.writes c.outbox c.stream.sent).1 = true ∧
      c'.stream.reads = c.stream.reads := by
  rw [flushOutbox, Op.exec_get_bind] at h
  generalize Daemon.Client.writeLoop c.stream.writes c.outbox c.stream.sent = written at h ⊢
  obtain ⟨ok, writes, outbox, sent⟩ := written
  dsimp only at h
  rw [Op.exec_modify_bind] at h
  cases ok with
  | true =>
    obtain rfl := (Prod.mk.inj h).2
    exact ⟨rfl, rfl⟩
  | false => cases h

/-- A pump that comes to no DATA leaves the views in the cache. -/
theorem pump_views {c : Client} (h : c.hearsData = false) :
    (pump.exec c).2.cached = c.cached ∧ (pump.exec c).2.liveCached = c.liveCached := by
  have hflush := Aside.flushOutbox c
  rw [pump, Op.exec_bind]
  rcases hrun : flushOutbox.exec c with ⟨e | _, c₁⟩
  · rw [hrun] at hflush
    exact ⟨hflush.cached, hflush.liveCached⟩
  rw [hrun] at hflush
  obtain ⟨hok, hreads⟩ := flushOutbox_ok hrun
  rw [hearsData, hok, Bool.true_and, List.any_eq_false, ← hreads, ← hflush.decoder] at h
  obtain ⟨hcached, hlive⟩ := @readLoop_views 0 c₁.stream.reads c₁ fun f hf => eq_false_of_ne_true (h f hf)
  dsimp only
  rw [Op.exec_get_bind, Op.exec_bind]
  rcases hloop : (readLoop 0 c₁.stream.reads).exec c₁ with ⟨e | fed, c₂⟩
  · rw [hloop] at hcached hlive
    exact ⟨hcached.trans hflush.cached, hlive.trans hflush.liveCached⟩
  · rw [hloop] at hcached hlive
    have hgrant := Aside.replenish c₂ fed
    dsimp only
    rw [Op.exec_bind]
    rcases hlast : (replenish fed).exec c₂ with ⟨e | _, c₃⟩
    · rw [hlast] at hgrant
      exact ⟨hgrant.cached.trans (hcached.trans hflush.cached),
        hgrant.liveCached.trans (hlive.trans hflush.liveCached)⟩
    · rw [hlast] at hgrant
      exact ⟨hgrant.cached.trans (hcached.trans hflush.cached),
        hgrant.liveCached.trans (hlive.trans hflush.liveCached)⟩

end Client

end Rill.Host
