import Rill.Vt.Checkpoint
import Rill.Vt.Repaint

/-!
# The VT engine

Parser and screen behind the calls a host makes.
-/

namespace Rill.Vt

structure VtEngine where
  parser : Parser
  screen : Screen

namespace VtEngine

def new (cols rows : UInt16) : Except Error VtEngine := do
  pure { parser := .new, screen := ← Screen.new cols rows }

/-- The parser's calls, made on the screen in order. -/
def feed (e : VtEngine) (bytes : List UInt8) : VtEngine :=
  let (parser, acts) := e.parser.feed bytes
  { parser, screen := acts.foldl Screen.act e.screen }

def resize (e : VtEngine) (cols rows : UInt16) : Except Error VtEngine := do
  pure { e with screen := ← e.screen.resize cols rows }

def snapshot (e : VtEngine) : PodGrid × VtEngine :=
  let (grid, screen) := e.screen.snapshot
  (grid, { e with screen })

def setPalette (e : VtEngine) (palette : Palette) : VtEngine :=
  { e with screen := e.screen.setPalette palette }

def takeReplies (e : VtEngine) : List UInt8 × VtEngine :=
  let (replies, screen) := e.screen.takeReplies
  (replies, { e with screen })

def takeScrolledOff (e : VtEngine) : List (List PodCell) × VtEngine :=
  let (rows, screen) := e.screen.takeScrolledOff
  (rows, { e with screen })

def modeState (e : VtEngine) : TerminalModeState := e.screen.modeState

/-- Clears parser and grid at the size they have. -/
def reset (e : VtEngine) : Except Error VtEngine := new e.screen.cols e.screen.rows

/-- Cold resync: the history replayed into a cleared engine, and its screen as
bytes after a clear and a home. -/
def resyncFromHistory (e : VtEngine) (history : List UInt8) :
    Except Error (List UInt8 × VtEngine) := do
  let e ← e.reset
  let e := { e with screen := e.screen.setDiscardReplies true }
  let e := if history.isEmpty then e else e.feed history
  let e := { e with screen := e.screen.setDiscardReplies false }
  pure ([0x1b, 0x5b, 0x32, 0x4a, 0x1b, 0x5b, 0x48] ++ e.screen.repaintBytes, e)

theorem new_eq {e : VtEngine} (h : new cols rows = .ok e) :
    ∃ s, Screen.new cols rows = .ok s ∧ e = ⟨.new, s⟩ := by
  unfold new at h
  cases hs : Screen.new cols rows with
  | error err =>
    rw [hs] at h
    cases h
  | ok s =>
    rw [hs] at h
    exact ⟨s, rfl, (Except.ok.inj h).symm⟩

theorem resize_eq {e f : VtEngine} (h : e.resize cols rows = .ok f) :
    ∃ s, e.screen.resize cols rows = .ok s ∧ f = { e with screen := s } := by
  unfold resize at h
  cases hs : e.screen.resize cols rows with
  | error err =>
    rw [hs] at h
    cases h
  | ok s =>
    rw [hs] at h
    exact ⟨s, rfl, (Except.ok.inj h).symm⟩

theorem new_ok {e : VtEngine} (h : new cols rows = .ok e) : Screen.new cols rows = .ok e.screen := by
  obtain ⟨s, hs, rfl⟩ := new_eq h
  exact hs

theorem parser_new {e : VtEngine} (h : new cols rows = .ok e) : e.parser = .new := by
  obtain ⟨s, -, rfl⟩ := new_eq h
  rfl

theorem resize_ok {e f : VtEngine} (h : e.resize cols rows = .ok f) :
    e.screen.resize cols rows = .ok f.screen := by
  obtain ⟨s, hs, rfl⟩ := resize_eq h
  exact hs

theorem resyncFromHistory_ne_nil {e e' : VtEngine} {history bytes : List UInt8}
    (h : e.resyncFromHistory history = .ok (bytes, e')) : bytes ≠ [] := by
  cases hreset : e.reset with
  | error err =>
    rw [resyncFromHistory, hreset] at h
    cases h
  | ok e₁ =>
    rw [resyncFromHistory, hreset] at h
    obtain ⟨rfl, -⟩ := Prod.mk.inj (Except.ok.inj h)
    exact List.cons_ne_nil _ _

def exportCheckpoint (e : VtEngine) (endingOffset : UInt64) : Except Error (List UInt8) :=
  if e.parser.isIdle then .ok (e.screen.exportCheckpoint endingOffset)
  else .error (.vt "incomplete parser")

/-- The offset in the checkpoint; the parser starts afresh. -/
def importCheckpoint (e : VtEngine) (bytes : List UInt8) : Except Error (UInt64 × VtEngine) := do
  let (offset, screen) ← e.screen.importCheckpoint bytes
  pure (offset, { parser := .new, screen })

end VtEngine

end Rill.Vt
