import Rill.Vt.Cancel
import Rill.Vt.Delta

/-!
# String bodies

What stands in an OSC, DCS, SOS, PM or APC string never reaches the screen, nor does
it change what an ESC that breaks it off starts.
-/

namespace Rill.Vt

inductive StringKind
  | osc
  | dcs
  | sos
  | pm
  | apc
  deriving DecidableEq, Repr

namespace StringKind

/-- The byte after the ESC that opens the string. -/
def opener : StringKind → UInt8
  | osc => 0x5d
  | dcs => 0x50
  | sos => 0x58
  | pm => 0x5e
  | apc => 0x5f

def bodyState : StringKind → State
  | osc => .oscString
  | dcs => .dcsPassthrough
  | sos | pm | apc => .sosPmApc

/-- What ends the string: ST, and for an OSC also BEL. -/
def terminators : StringKind → List (List UInt8)
  | osc => [[0x1b, 0x5c], [0x07]]
  | dcs | sos | pm | apc => [[0x1b, 0x5c]]

/-- A byte that does not end or break off the string. -/
def isBody (k : StringKind) (b : UInt8) : Bool :=
  b ≠ 0x1b && !isCancel b && !(k = osc && b = 0x07)

end StringKind

namespace Parser

variable {k : StringKind} {p q : Parser} {b : UInt8} {body rest : List UInt8}

/-- In the body of a string; an OSC keeps what it has room for. -/
def InBody (k : StringKind) (p : Parser) : Prop :=
  ∃ ignore osc, p = { Parser.new with state := k.bodyState, ignore, osc }

theorem InBody.putback (h : InBody k p) : p.putback = none := by
  obtain ⟨ignore, osc, rfl⟩ := h
  rfl

theorem InBody.tidy (h : InBody k p) : Tidy p := by
  obtain ⟨ignore, osc, rfl⟩ := h
  exact ⟨fun _ => rfl, fun _ => rfl⟩

theorem feed_opener (k : StringKind) (rest : List UInt8) :
    ∃ p, InBody k p ∧ Parser.new.feed (0x1b :: k.opener :: rest) = p.feed rest := by
  have hesc : Parser.new.step 0x1b = (escaped, []) := by decide
  have hopen : escaped.step k.opener = ({ Parser.new with state := k.bodyState }, []) := by
    cases k with
    | osc | dcs | sos | pm | apc => decide
  refine ⟨{ Parser.new with state := k.bodyState }, ⟨false, [], rfl⟩, ?_⟩
  rw [feed_step rfl rfl hesc, feed_step rfl rfl hopen]

theorem InBody.step (h : InBody k p) (hb : k.isBody b = true) : ∃ q, InBody k q ∧ p.step b = (q, []) := by
  simp only [StringKind.isBody, Bool.and_eq_true, Bool.not_eq_true', decide_eq_true_eq] at hb
  obtain ⟨⟨hesc, hcancel⟩, hbel⟩ := hb
  rw [h.tidy.step_eq]
  obtain ⟨ignore, osc, rfl⟩ := h
  cases k with
  | osc =>
    have hbel : b ≠ 0x07 := by simpa using hbel
    unfold dispatch
    dsimp only [StringKind.bodyState]
    rw [oscString, if_neg hbel, if_neg hesc, hcancel, if_neg Bool.false_ne_true, pushOsc]
    split
    case isTrue => exact ⟨_, ⟨ignore, osc ++ [b], rfl⟩, rfl⟩
    case isFalse => exact ⟨_, ⟨true, osc, rfl⟩, rfl⟩
  | dcs =>
    unfold dispatch
    dsimp only [StringKind.bodyState]
    rw [dcsPassthrough, if_neg hesc, hcancel, if_neg Bool.false_ne_true]
    exact ⟨_, ⟨ignore, osc, rfl⟩, rfl⟩
  | sos | pm | apc =>
    unfold dispatch
    dsimp only [StringKind.bodyState]
    rw [Parser.sos, if_neg hesc, hcancel, if_neg Bool.false_ne_true]
    exact ⟨_, ⟨ignore, osc, rfl⟩, rfl⟩

theorem InBody.feed (h : InBody k p) (hbody : ∀ b ∈ body, k.isBody b = true) (rest : List UInt8) :
    ∃ q, InBody k q ∧ p.feed (body ++ rest) = q.feed rest := by
  induction body generalizing p with
  | nil => exact ⟨p, h, rfl⟩
  | cons b body ih =>
    obtain ⟨q, hq, hstep⟩ := h.step (hbody b List.mem_cons_self)
    obtain ⟨r, hr, hrest⟩ := ih hq fun c hc => hbody c (List.mem_cons_of_mem _ hc)
    refine ⟨r, hr, ?_⟩
    rw [List.cons_append, feed_step h.putback hq.putback hstep, hrest]

/-- An ESC in the body leads to a state that has the next byte read as after any ESC, unless it is the
backslash. -/
theorem InBody.step_esc (h : InBody k p) :
    ∃ q, Tidy q ∧ q.inStringEscape ∧ q.putback = none ∧
      ({ q.resetSeq with state := .escape } : Parser) = escaped ∧ p.step 0x1b = (q, []) := by
  rw [h.tidy.step_eq]
  obtain ⟨ignore, osc, rfl⟩ := h
  cases k with
  | osc => exact ⟨_, ⟨fun _ => rfl, fun _ => rfl⟩, .inl rfl, rfl, rfl, rfl⟩
  | dcs => exact ⟨_, ⟨fun _ => rfl, fun _ => rfl⟩, .inr (.inl rfl), rfl, rfl, rfl⟩
  | sos | pm | apc => exact ⟨_, ⟨fun _ => rfl, fun _ => rfl⟩, .inr (.inr rfl), rfl, rfl, rfl⟩

theorem InBody.interrupted (h : InBody k p) (hb : b ≠ 0x5c) (rest : List UInt8) :
    p.feed (0x1b :: b :: rest) = escaped.feed (b :: rest) := by
  obtain ⟨q, hq, hesc, hnone, hreset, hstep⟩ := h.step_esc
  have hback : q.step b = (escaped.reprocess b, []) := by
    rw [step_stringEscape hq hesc hb, hreset]
  rw [feed_step h.putback hnone hstep, feed_reprocess hnone rfl (.inr rfl) hback rest]
  rfl

theorem InBody.terminated (h : InBody k p) {t : List UInt8} (ht : t ∈ k.terminators) :
    ∃ acts, p.feed t = (.new, acts) ∧ ∀ s : Screen, acts.foldl Screen.act s = s := by
  obtain ⟨ignore, osc, rfl⟩ := h
  cases k with
  | osc =>
    rcases List.mem_cons.mp ht with rfl | ht
    · exact ⟨[.osc osc], rfl, fun _ => rfl⟩
    · obtain rfl := List.mem_singleton.mp ht
      exact ⟨[.osc osc], rfl, fun _ => rfl⟩
  | dcs | sos | pm | apc =>
    obtain rfl := List.mem_singleton.mp ht
    exact ⟨[], rfl, fun _ => rfl⟩

theorem feed_string (hbody : ∀ b ∈ body, k.isBody b = true) {t : List UInt8} (ht : t ∈ k.terminators) :
    ∃ acts, Parser.new.feed (0x1b :: k.opener :: body ++ t) = (.new, acts) ∧
      ∀ s : Screen, acts.foldl Screen.act s = s := by
  obtain ⟨p, hp, hopen⟩ := feed_opener k (body ++ t)
  obtain ⟨q, hq, hfeed⟩ := hp.feed hbody t
  rw [List.cons_append, List.cons_append, hopen, hfeed]
  exact hq.terminated ht

/-- An ESC and what follows it are read as they would be without the string before them. -/
theorem feed_interrupted (hbody : ∀ b ∈ body, k.isBody b = true) (hb : b ≠ 0x5c)
    (rest : List UInt8) :
    Parser.new.feed (0x1b :: k.opener :: body ++ 0x1b :: b :: rest) =
      Parser.new.feed (0x1b :: b :: rest) := by
  obtain ⟨p, hp, hopen⟩ := feed_opener k (body ++ 0x1b :: b :: rest)
  obtain ⟨q, hq, hfeed⟩ := hp.feed hbody (0x1b :: b :: rest)
  have hesc : Parser.new.step 0x1b = (escaped, []) := by decide
  rw [List.cons_append, List.cons_append, hopen, hfeed, hq.interrupted hb, feed_step rfl rfl hesc]

/-- A parser at rest reads what starts with ESC just as a new one. -/
theorem feed_of_resting (h : Resting p) (rest : List UInt8) :
    p.feed (0x1b :: rest) = Parser.new.feed (0x1b :: rest) := by
  have hstep : p.step 0x1b = (escaped, []) := by
    have hneeded : ¬ p.utf8Needed > 0 := by rw [h.utf8Needed]; exact Nat.lt_irrefl 0
    rw [step_of_ground h.state, Parser.ground, if_neg hneeded,
      ← escaped_of_tidy h.utf8 h.utf8Needed h.putback]
    rfl
  have hesc : Parser.new.step 0x1b = (escaped, []) := by decide
  rw [feed_step h.putback rfl hstep, feed_step rfl rfl hesc]

end Parser

namespace VtEngine

/-- A string, however cut into chunks, leaves the screen alone, and the sequence that breaks one off
does what it would without it. -/
theorem string_bodies (e : VtEngine) (hp : e.parser.Fed) (hidle : e.parser.isIdle) (k : StringKind)
    (body : List UInt8) (hbody : ∀ b ∈ body, k.isBody b = true) :
    (∀ t ∈ k.terminators, ∀ chunks : List (List UInt8),
      chunks.flatten = 0x1b :: k.opener :: body ++ t →
        (e.feedAll chunks).screen = e.screen ∧ (e.feedAll chunks).parser.isIdle) ∧
      ∀ b ≠ 0x5c, ∀ (rest : List UInt8) (chunks plain : List (List UInt8)),
        chunks.flatten = 0x1b :: k.opener :: body ++ 0x1b :: b :: rest →
          plain.flatten = 0x1b :: b :: rest → e.feedAll chunks = e.feedAll plain := by
  have hrest := Parser.resting_of_idle hp hidle
  refine ⟨fun t ht chunks hchunks => ?_, fun b hb rest chunks plain hchunks hplain => ?_⟩
  · obtain ⟨acts, hfeed, hacts⟩ := Parser.feed_string hbody ht
    rw [feedAll_eq hrest.putback, hchunks, feed]
    rw [List.cons_append, List.cons_append] at hfeed ⊢
    rw [Parser.feed_of_resting hrest, hfeed]
    exact ⟨hacts e.screen, rfl⟩
  · have hsame := Parser.feed_interrupted hbody hb rest
    rw [feedAll_eq hrest.putback, feedAll_eq hrest.putback, hchunks, hplain, feed, feed]
    rw [List.cons_append, List.cons_append] at hsame ⊢
    rw [Parser.feed_of_resting hrest, Parser.feed_of_resting hrest, hsame]

/-- A title in three chunks, and a cursor movement that breaks one off. -/
theorem string_bodies_title :
    ∃ e, new 2 1 = .ok e ∧
      (e.feedAll [[0x1b], [0x5d, 0x30, 0x3b, 0xc3], [0x0a, 0x07]]).screen = e.screen ∧
      e.feedAll [[0x1b, 0x5d, 0x30], [0x3b, 0xc3, 0x0a, 0x1b, 0x5b, 0x43]] =
        e.feedAll [[0x1b, 0x5b, 0x43]] := by
  have hbody : ∀ b ∈ [0x30, 0x3b, 0xc3, 0x0a], StringKind.osc.isBody b = true :=
    List.forall_mem_cons.mpr ⟨rfl, List.forall_mem_cons.mpr ⟨rfl, List.forall_mem_cons.mpr ⟨rfl,
      List.forall_mem_singleton.mpr rfl⟩⟩⟩
  obtain ⟨e, he⟩ : ∃ e, new 2 1 = .ok e := ⟨_, rfl⟩
  have hparser := parser_new he
  have hidle : e.parser.isIdle := by rw [hparser]; rfl
  refine ⟨e, he, ?_⟩
  obtain ⟨hkept, hsame⟩ := string_bodies e ⟨[], hparser.symm⟩ hidle .osc [0x30, 0x3b, 0xc3, 0x0a] hbody
  exact ⟨(hkept [0x07] (List.mem_cons_of_mem _ (List.mem_singleton_self _)) _ rfl).1,
    hsame 0x5b (by decide) [0x43] _ _ rfl rfl⟩

end VtEngine

end Rill.Vt
