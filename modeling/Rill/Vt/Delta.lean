import Rill.Vt.Roundtrip
import Rill.Vt.Stream

/-!
# Checkpoint plus delta

An engine that imports a checkpoint mirrors the engine that exported it, and a
mirror stays one over any further bytes, however either side cuts them.
-/

namespace Rill.Vt

namespace VtEngine

/-- The engines a host can have: a new one after any of its calls. -/
inductive Reached : VtEngine → Prop
  | new : VtEngine.new cols rows = .ok e → Reached e
  | feed : Reached e → ∀ bytes, Reached (e.feed bytes)
  | resize : Reached e → e.resize cols rows = .ok f → Reached f
  | setPalette : Reached e → ∀ palette, Reached (e.setPalette palette)
  | snapshot : Reached e → Reached e.snapshot.2
  | takeReplies : Reached e → Reached e.takeReplies.2
  | takeScrolledOff : Reached e → Reached e.takeScrolledOff.2
  | reset : Reached e → e.reset = .ok f → Reached f

def feedAll (e : VtEngine) (chunks : List (List UInt8)) : VtEngine := chunks.foldl feed e

/-- What the two show, damage, replies and scrolled-off rows aside. -/
structure SameView (e f : VtEngine) : Prop where
  cols : e.screen.cols = f.screen.cols
  rows : e.screen.rows = f.screen.rows
  cells : e.screen.cells = f.screen.cells
  cursorCol : e.screen.cursorCol = f.screen.cursorCol
  cursorRow : e.screen.cursorRow = f.screen.cursorRow
  cursorVisible : e.screen.cursorVisible = f.screen.cursorVisible
  modeState : e.modeState = f.modeState
  palette : e.screen.palette = f.screen.palette
  graphemeTruncated : e.screen.graphemeTruncated = f.screen.graphemeTruncated
  shown : e.screen.cells.map e.screen.podCell = f.screen.cells.map f.screen.podCell

-- ---------------------------------------------------------------------------
-- Reached engines
-- ---------------------------------------------------------------------------

structure Invariant (e : VtEngine) : Prop where
  sound : ∃ cols rows, Sound True cols rows e.screen
  utf8Ok : e.parser.Utf8Ok
  putback : e.parser.putback = none

theorem Invariant.withScreen {e : VtEngine} (h : Invariant e) {s : Screen}
    (hs : Sound True cols rows s) : Invariant { e with screen := s } :=
  ⟨⟨cols, rows, hs⟩, h.utf8Ok, h.putback⟩

theorem invariant_new (h : VtEngine.new cols rows = .ok e) : Invariant e := by
  obtain ⟨s, hs, rfl⟩ := new_eq h
  exact ⟨⟨_, _, sound_new hs⟩, fun _ => rfl, rfl⟩

theorem invariant_feed (h : Invariant e) (bytes : List UInt8) : Invariant (e.feed bytes) := by
  obtain ⟨cols, rows, hs⟩ := h.sound
  exact ⟨⟨cols, rows, hs.acts _⟩, Parser.utf8Ok_feed h.utf8Ok bytes, Parser.putback_feed _ bytes⟩

theorem invariant_resize (h : Invariant e) (hr : e.resize cols rows = .ok f) : Invariant f := by
  obtain ⟨_, _, hs⟩ := h.sound
  obtain ⟨s, hn, rfl⟩ := resize_eq hr
  exact h.withScreen (sound_resize hn hs)

theorem Reached.invariant (h : Reached e) : Invariant e := by
  induction h with
  | new hn => exact invariant_new hn
  | feed _ bytes ih => exact invariant_feed ih bytes
  | resize _ hr ih => exact invariant_resize ih hr
  | reset _ hr ih => exact invariant_new hr
  | setPalette _ _ ih | snapshot _ ih | takeReplies _ ih | takeScrolledOff _ ih =>
    obtain ⟨_, _, hs⟩ := ih.sound
    exact ih.withScreen { hs with }

-- ---------------------------------------------------------------------------
-- Mirrors
-- ---------------------------------------------------------------------------

/-- The engines make the same calls on screens that differ only for their host. -/
structure Mirror (e f : VtEngine) : Prop where
  parser : Parser.Alike e.parser f.parser
  screen : Screen.Agree e.screen f.screen

theorem Mirror.feed (h : Mirror e f) (bytes : List UInt8) : Mirror (e.feed bytes) (f.feed bytes) := by
  obtain ⟨hacts, hparser⟩ := h.parser.feed bytes
  refine ⟨hparser, ?_⟩
  have hscreen := h.screen.acts (e.parser.feed bytes).2
  simp only [VtEngine.feed]
  rwa [hacts] at hscreen ⊢

theorem Mirror.sameView (h : Mirror e f) : SameView f e := by
  obtain ⟨k, hk⟩ := h.screen.eq_setHost
  constructor <;> simp only [VtEngine.modeState, hk] <;> rfl

theorem feed_feed (e : VtEngine) (a b : List UInt8) : (e.feed a).feed b = e.feed (a ++ b) := by
  simp only [feed, Parser.feed_append, List.foldl_append]

theorem feed_nil {e : VtEngine} (h : e.parser.putback = none) : e.feed [] = e := by
  simp [feed, Parser.feed, Parser.settle_of_none 2 h]

/-- Cutting the input changes nothing. -/
theorem feedAll_eq {e : VtEngine} (h : e.parser.putback = none) (chunks : List (List UInt8)) :
    e.feedAll chunks = e.feed chunks.flatten := by
  induction chunks generalizing e with
  | nil => exact (feed_nil h).symm
  | cons chunk chunks ih =>
    have hnext : (e.feed chunk).parser.putback = none := Parser.putback_feed _ chunk
    rw [List.flatten_cons, ← feed_feed]
    exact ih hnext

/-- From any engine the loop ends, with nothing put back, and a cut in its input
changes neither the parser nor the screen. -/
theorem feed_cut (e : VtEngine) (a b : List UInt8) :
    (∀ n, e.parser.feedLoop (n + 3 * a.length + 3) a = some (e.parser.feed a)) ∧
      (e.feed a).parser.putback = none ∧ e.feed (a ++ b) = (e.feed a).feed b :=
  ⟨fun _ => Parser.feedLoop_of_lt _ a (by omega), Parser.putback_feed _ a, (feed_feed e a b).symm⟩

-- ---------------------------------------------------------------------------
-- Checkpoints
-- ---------------------------------------------------------------------------

theorem exportCheckpoint_of_idle {e : VtEngine} (h : e.parser.isIdle) (offset : UInt64) :
    e.exportCheckpoint offset = .ok (e.screen.exportCheckpoint offset) := if_pos h

theorem importCheckpoint_exported {s : VtEngine} (hs : Sound strict cols rows s.screen) (m : VtEngine)
    (offset : UInt64) :
    m.importCheckpoint (s.screen.exportCheckpoint offset) =
      .ok (offset, { parser := .new, screen := s.screen.setHost m.screen.importedHost }) := by
  simp only [VtEngine.importCheckpoint,
    Screen.importCheckpoint_exportCheckpoint hs m.screen offset]
  rfl

/-- The importer mirrors the exporter, and so it does over any further bytes. -/
theorem mirror_imported {s : VtEngine} (hs : Reached s) (hidle : s.parser.isIdle) (h : Host) :
    Mirror s { parser := .new, screen := s.screen.setHost h } :=
  ⟨Parser.alike_new hidle hs.invariant.utf8Ok, Screen.Agree.of_setHost _ _⟩

theorem checkpoint_delta {s : VtEngine} (hs : Reached s) (hidle : s.parser.isIdle) (m : VtEngine)
    (offset : UInt64) (bytes : List UInt8) (chunks cuts : List (List UInt8))
    (hchunks : chunks.flatten = bytes) (hcuts : cuts.flatten = bytes) :
    ∃ blob next, s.exportCheckpoint offset = .ok blob ∧
      m.importCheckpoint blob = .ok (offset, next) ∧
      next.exportCheckpoint offset = .ok blob ∧
      SameView (next.feedAll chunks) (s.feedAll cuts) ∧
      (s.feedAll cuts).screen.panicked = false ∧
      (m.screen.panicked = false → (next.feedAll chunks).screen.panicked = false) := by
  obtain ⟨⟨cols, rows, hsound⟩, -, hputback⟩ := hs.invariant
  refine ⟨_, _, exportCheckpoint_of_idle hidle offset, importCheckpoint_exported hsound m offset, rfl,
    ?_, ?_, fun hm => ?_⟩
  · rw [feedAll_eq rfl, feedAll_eq hputback, hchunks, hcuts]
    exact ((mirror_imported hs hidle _).feed bytes).sameView
  · rw [feedAll_eq hputback]
    exact (hsound.acts _).panicked
  · rw [feedAll_eq rfl]
    have hnext : Sound True cols rows (s.screen.setHost m.screen.importedHost) :=
      { hsound with panicked := hm }
    exact (hnext.acts _).panicked

/-- A session in the middle of bold text, and a DELTA that ends it, draws a two-byte character and
changes line, cut in the character on one side and in the sequence on the other. -/
theorem checkpoint_delta_cut :
    let s := ((VtEngine.new 4 2).toOption.get rfl).feed
      [0x1b, 0x5b, 0x31, 0x6d, 0x61, 0x62, 0x0d, 0x0a, 0x63]
    let m := (VtEngine.new 3 1).toOption.get rfl
    let chunks : List (List UInt8) := [[0x1b, 0x5b, 0x6d, 0xc3], [0xa9, 0x0d, 0x0a], [0x64]]
    let cuts : List (List UInt8) := [[0x1b, 0x5b], [0x6d, 0xc3, 0xa9, 0x0d, 0x0a, 0x64]]
    ∃ blob next, s.exportCheckpoint 9 = .ok blob ∧ m.importCheckpoint blob = .ok (9, next) ∧
      next.exportCheckpoint 9 = .ok blob ∧ SameView (next.feedAll chunks) (s.feedAll cuts) ∧
      (s.feedAll cuts).screen.panicked = false ∧ (next.feedAll chunks).screen.panicked = false := by
  intro s m chunks cuts
  have hs : Reached s := .feed (.new (show VtEngine.new 4 2 = .ok _ from rfl)) _
  obtain ⟨blob, next, hexport, himport, hagain, hview, hsafe, hnext⟩ :=
    checkpoint_delta hs (by decide +kernel) m 9 chunks.flatten chunks cuts rfl rfl
  exact ⟨blob, next, hexport, himport, hagain, hview, hsafe, hnext rfl⟩

end VtEngine

end Rill.Vt
