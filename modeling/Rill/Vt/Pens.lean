import Mathlib.Data.List.Induction
import Rill.Vt.Cancel
import Rill.Vt.Readback
import Rill.Vt.Replies

/-!
# Pens on the wire

What is emitted for a pen sets that pen again, whatever the pen was before and
whatever was being read.
-/

namespace Rill.Vt

namespace Parser

-- ---------------------------------------------------------------------------
-- Numbers
-- ---------------------------------------------------------------------------

/-- The digits of a parameter go into the accumulator, which saturates. -/
theorem foldl_pushDigit (p : Parser) (digits : List UInt8) :
    digits.foldl pushDigit { p with paramAcc := 0 } =
      { p with paramAcc := min (decimal digits) 65535 } := by
  induction digits using List.reverseRecOn with
  | nil => rfl
  | append_singleton digits b ih =>
    have hacc : min (min (decimal digits) 65535 * 10 + (b - 0x30).toNat) 65535 =
        min (decimal digits * 10 + (b - 0x30).toNat) 65535 := by omega
    rw [List.foldl_append, ih, decimal_concat]
    simp [pushDigit, hacc]

theorem finishParam_writeU16 (p : Parser) (n : UInt16) (h : p.params.length < maxParams) :
    ((writeU16 n).foldl pushDigit { p with paramAcc := 0 }).finishParam =
      { p with params := p.params ++ [n], paramAcc := 0 } := by
  have hn := n.toNat_lt
  rw [foldl_pushDigit, writeU16_eq, (numeral_reads n.toNat).2, Nat.min_eq_left (by omega)]
  simp [finishParam, h, ofNat_min_toNat]

-- ---------------------------------------------------------------------------
-- Openings
-- ---------------------------------------------------------------------------

variable {p : Parser}

theorem dispatch_esc_string (hs : p.inString) : ∃ st,
    p.dispatch 0x1b = ({ p with state := st }, []) ∧ ({ p with state := st } : Parser).inStringEscape := by
  unfold dispatch
  rcases hs with hs | hs | hs
  · rw [hs]
    exact ⟨.oscEscape, rfl, .inl rfl⟩
  · rw [hs]
    exact ⟨.dcsEscape, rfl, .inr (.inl rfl)⟩
  · rw [hs]
    exact ⟨.sosEscape, rfl, .inr (.inr rfl)⟩

/-- The ESC that might end a string starts a sequence when a bracket follows. -/
theorem feed_csi_string (h : Tidy p) (hp : p.putback = none) (hs : p.inString) :
    (p.feed [0x1b, 0x5b]).1 = (escaped.feed [0x5b]).1 := by
  have hground : p.state ≠ .ground := by
    rintro hst
    simp [inString, hst] at hs
  obtain ⟨st, hstep, hesc⟩ := dispatch_esc_string hs
  rw [← h.step_eq] at hstep
  have htidy : Tidy { p with state := st } := h.of_held hground rfl rfl
  have hneeded := h.needed hground
  have hbracket := step_stringEscape (b := 0x5b) htidy hesc (by decide)
  rw [escaped_of_tidy (p := { p with state := st }) (h.utf8 hneeded) hneeded hp] at hbracket
  have hput : ({ p with state := st } : Parser).putback = none := hp
  rw [feed_step hp hput hstep, feed_reprocess hput rfl (.inr rfl) hbracket]
  rfl

theorem feed_csi (hp : Fed p) : (p.feed [0x1b, 0x5b]).1 = (Parser.new.feed [0x1b, 0x5b]).1 := by
  by_cases hs : p.inString
  · exact feed_csi_string hp.tidy hp.putback hs
  · rw [← List.singleton_append, feed_append, feed_esc hp hs]
    rfl

theorem feed_csi_append (hp : Fed p) (rest : List UInt8) :
    (p.feed ([0x1b, 0x5b] ++ rest)).2 =
      (p.feed [0x1b, 0x5b]).2 ++ (Parser.new.feed ([0x1b, 0x5b] ++ rest)).2 := by
  have hnew : (Parser.new.feed [0x1b, 0x5b]).2 = [] := rfl
  rw [feed_append, feed_append, feed_csi hp, hnew, List.nil_append]

end Parser

-- ---------------------------------------------------------------------------
-- Pens
-- ---------------------------------------------------------------------------

/-- An engine shows what an engine at rest would, once what it was reading is cut off. -/
theorem Shows.feed_csi {e : VtEngine} (he : e.parser.Fed) (rest : List UInt8) {t : Screen → Screen}
    (h : ∀ s, Shows ([0x1b, 0x5b] ++ rest) s (t s)) :
    (e.feed ([0x1b, 0x5b] ++ rest)).screen =
      t ((e.parser.feed [0x1b, 0x5b]).2.foldl Screen.act e.screen) := by
  obtain ⟨acts, hmakes, hacts⟩ := h ((e.parser.feed [0x1b, 0x5b]).2.foldl Screen.act e.screen)
  have hnew : (Parser.new.feed ([0x1b, 0x5b] ++ rest)).2 = acts := congrArg Prod.snd hmakes
  rw [← hacts, ← hnew, ← List.foldl_append, ← Parser.feed_csi_append he]
  rfl

/-- The pen is set from wherever the parser is, on a screen with any pen; and a number that is
written as a parameter is the parameter that is read. -/
theorem emitted_reads_back :
    (∀ (e : VtEngine) (attrs : UInt16) (fg bg : Color), e.parser.Fed →
      (e.feed (sgrReset ++ emitAttrs attrs ++ emitColor true fg ++ emitColor false bg)).screen.pen =
        ⟨fg, bg, attrs &&& 7⟩) ∧
    ∀ (p : Parser) (n : UInt16), p.params.length < maxParams →
      ((writeU16 n).foldl Parser.pushDigit { p with paramAcc := 0 }).finishParam =
        { p with params := p.params ++ [n], paramAcc := 0 } := by
  refine ⟨fun e attrs fg bg he => ?_, Parser.finishParam_writeU16⟩
  let cell : Cell := { Cell.blank .default with fg := fg, bg := bg, attrs := attrs }
  have h := Shows.feed_csi he ([0x30, 0x6d] ++ emitAttrs attrs ++ emitColor true fg ++ emitColor false bg)
    fun s => Shows.pen s cell
  exact congrArg Screen.pen h

/-- Bold and inverse, a bright foreground and an RGB background, on a screen with another pen and
in the middle of a title. -/
theorem emitted_reads_back_title :
    let title : List UInt8 := [0x1b, 0x5b, 0x34, 0x3b, 0x33, 0x31, 0x6d, 0x1b, 0x5d, 0x32, 0x3b, 0x61]
    let e := ((VtEngine.new 2 1).toOption.get rfl).feed title
    e.screen.pen = ⟨.indexed 1, .default, 2⟩ ∧
      (e.feed (sgrReset ++ emitAttrs 5 ++ emitColor true (.indexed 12) ++
        emitColor false (.rgb 1 20 255))).screen.pen = ⟨.indexed 12, .rgb 1 20 255, 5⟩ ∧
      ((writeU16 65535).foldl Parser.pushDigit { Parser.new with paramAcc := 0 }).finishParam.params =
        [65535] := by
  intro title e
  refine ⟨by decide +kernel, emitted_reads_back.1 e 5 _ _ ⟨title, rfl⟩, ?_⟩
  rw [emitted_reads_back.2 _ _ (by decide)]
  rfl

end Rill.Vt
