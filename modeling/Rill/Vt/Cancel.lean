import Rill.Vt.Csi

/-!
# Cancelled sequences

CAN, SUB and ESC leave nothing of the sequence that they break off.
-/

namespace Rill.Vt

namespace Parser

variable {p q : Parser} {b : UInt8}

-- ---------------------------------------------------------------------------
-- Collected bytes
-- ---------------------------------------------------------------------------

structure Tidy (p : Parser) : Prop where
  utf8 : p.utf8Needed = 0 → p.utf8 = []
  needed : p.state ≠ .ground → p.utf8Needed = 0

theorem Tidy.of_held (h : Tidy p) (hs : p.state ≠ .ground) (hq : q.utf8 = p.utf8)
    (hn : q.utf8Needed = p.utf8Needed) : Tidy q where
  utf8 _ := hq.trans (h.utf8 (h.needed hs))
  needed _ := hn.trans (h.needed hs)

theorem utf8_of_held (h : held q = held p) : q.utf8 = p.utf8 ∧ q.utf8Needed = p.utf8Needed := by
  obtain ⟨h8, hn⟩ := Prod.mk.inj h
  exact ⟨h8, (Prod.mk.inj hn).1⟩

theorem Tidy.ground (h : Tidy p) (hs : p.state = .ground) (b : UInt8) : Tidy (p.ground b).1 := by
  by_cases hn : 0 < p.utf8Needed
  · rw [Parser.ground, if_pos hn]
    split
    · dsimp only
      split
      · exact ⟨fun _ => rfl, fun _ => rfl⟩
      · exact ⟨fun h => absurd h (Nat.ne_of_gt hn), fun hne => absurd hs hne⟩
    · rw [abortUtf8, if_pos hn]
      exact ⟨fun _ => rfl, fun _ => rfl⟩
  · have hzero := Nat.eq_zero_of_not_pos hn
    obtain hq | ⟨st, hq⟩ | ⟨n, hpos, hq⟩ := ground_start hn b
    · rwa [hq]
    · rw [hq]
      exact ⟨fun _ => h.utf8 hzero, fun _ => hzero⟩
    · rw [hq]
      exact ⟨fun hnone => absurd hnone (Nat.ne_of_gt hpos), fun hne => absurd hs hne⟩

theorem dispatch_utf8 (p : Parser) (b : UInt8) (hs : p.state ≠ .ground) :
    (p.dispatch b).1.utf8 = p.utf8 ∧ (p.dispatch b).1.utf8Needed = p.utf8Needed := by
  unfold dispatch
  cases h : p.state with
  | ground => exact absurd h hs
  | oscEscape | dcsEscape | sosEscape =>
    simp only [oscEscape, dcsEscape, sosEscape, stringEscape]
    split
    · exact ⟨rfl, rfl⟩
    · exact ⟨rfl, rfl⟩
  | escape => exact utf8_of_held (held_escape p b)
  | escapeIntermediate => exact utf8_of_held (held_escapeIntermediate p b)
  | csiEntry => exact utf8_of_held (held_csiEntry p b)
  | csiParam => exact utf8_of_held (held_csiParam p b)
  | csiIntermediate => exact utf8_of_held (held_csiIntermediate p b)
  | csiIgnore => exact utf8_of_held (held_csiIgnore p b)
  | oscString => exact utf8_of_held (held_oscString p b)
  | dcsPassthrough => exact utf8_of_held (held_dcsPassthrough p b)
  | sosPmApc => exact utf8_of_held (held_sos p b)

/-- Inside a sequence there is no character to abort. -/
theorem Tidy.step_eq (h : Tidy p) (b : UInt8) : p.step b = p.dispatch b := by
  have habort : ∀ hs : p.state ≠ .ground, p.abortUtf8 = (p, []) := by
    intro hs
    rw [abortUtf8, if_neg (by rw [h.needed hs]; exact Nat.lt_irrefl 0)]
  unfold Parser.step
  by_cases hs : p.state = .ground
  · rw [if_neg (not_not_intro hs)]
    rfl
  · rw [if_pos hs, habort hs]
    rfl

theorem Tidy.step (h : Tidy p) (b : UInt8) : Tidy (p.step b).1 := by
  rw [h.step_eq]
  by_cases hs : p.state = .ground
  · rw [dispatch, hs]
    exact h.ground hs b
  · obtain ⟨h8, hn⟩ := dispatch_utf8 p b hs
    exact h.of_held hs h8 hn

theorem Tidy.settle (h : Tidy p) (n : Nat) : Tidy (p.settle n).1 := by
  induction n generalizing p with
  | zero => exact h
  | succ n ih =>
    unfold Parser.settle
    split
    · exact h
    · exact ih (Tidy.step (p := { p with putback := none }) ⟨h.utf8, h.needed⟩ _)

theorem Tidy.feed (h : Tidy p) (bytes : List UInt8) : Tidy (p.feed bytes).1 := by
  induction bytes generalizing p with
  | nil => exact h.settle 2
  | cons b bytes ih => exact ih ((h.settle 2).step b)

theorem Fed.tidy (h : Fed p) : Tidy p := by
  obtain ⟨bytes, rfl⟩ := h
  exact Tidy.feed ⟨fun _ => rfl, fun _ => rfl⟩ bytes

-- ---------------------------------------------------------------------------
-- A byte that is put back
-- ---------------------------------------------------------------------------

/-- A byte put back in a quiet state is read as the next one is. -/
theorem feed_reprocess {acts : List Action} (hp : p.putback = none) (hq : q.putback = none)
    (hquiet : Quiet q) (h : p.step b = (q.reprocess b, acts)) (rest : List UInt8) :
    p.feed (b :: rest) = after acts (q.feed (b :: rest)) := by
  have hclear : ({ q.reprocess b with putback := none } : Parser) = q := by rw [← hq]; rfl
  have hread : (q.step b).1.putback = none := by
    obtain hnone | ⟨hnot, -⟩ := step_putback q b hq
    · exact hnone
    · exact absurd hquiet hnot
  have hback : (q.reprocess b).settle 2 = q.step b := by
    change ((settle 1 (Parser.step { q.reprocess b with putback := none } b).1).1,
      (Parser.step { q.reprocess b with putback := none } b).2 ++
        (settle 1 (Parser.step { q.reprocess b with putback := none } b).1).2) = _
    rw [hclear, settle_of_none 1 hread, List.append_nil]
  have hone : p.feed [b] = after acts (q.feed [b]) := by
    rw [feed_one hq hread rfl]
    simp only [Parser.feed, settle_of_none 2 hp, h, hback, List.nil_append]
    rfl
  rw [← List.singleton_append, feed_append, feed_append q, hone]
  exact Prod.ext rfl (List.append_assoc _ _ _)

-- ---------------------------------------------------------------------------
-- CAN, SUB and ESC
-- ---------------------------------------------------------------------------

/-- The state between an ESC inside the body of a string and the byte that tells whether it ends it. -/
def inStringEscape (p : Parser) : Prop :=
  p.state = .oscEscape ∨ p.state = .dcsEscape ∨ p.state = .sosEscape

/-- In the body of an OSC, DCS, SOS, PM or APC string. -/
def inString (p : Parser) : Prop :=
  p.state = .oscString ∨ p.state = .dcsPassthrough ∨ p.state = .sosPmApc

theorem step_stringEscape (h : Tidy p) (hs : p.inStringEscape) (hb : b ≠ 0x5c) :
    p.step b = ({ p.resetSeq with state := .escape }.reprocess b, []) := by
  rw [h.step_eq, dispatch]
  rcases hs with hs | hs | hs
  · rw [hs]
    exact if_neg hb
  · rw [hs]
    exact if_neg hb
  · rw [hs]
    exact if_neg hb

theorem isCancel_cases (hb : isCancel b = true) : b = 0x18 ∨ b = 0x1a := by
  unfold isCancel at hb
  simpa using hb

/-- Anywhere else CAN and SUB end the sequence, some of them without clearing its registers. -/
theorem dispatch_cancel (hb : isCancel b = true) (hs : p.state ≠ .ground)
    (hne : ¬ p.inStringEscape) :
    (p.dispatch b).1.state = .ground ∧ (p.dispatch b).1.putback = p.putback := by
  unfold dispatch
  rcases isCancel_cases hb with rfl | rfl
  all_goals
    cases h : p.state with
    | ground => exact absurd h hs
    | oscEscape => exact absurd (.inl h) hne
    | dcsEscape => exact absurd (.inr (.inl h)) hne
    | sosEscape => exact absurd (.inr (.inr h)) hne
    | escape | escapeIntermediate | csiEntry | csiParam | csiIntermediate | csiIgnore | oscString
    | dcsPassthrough | sosPmApc => exact ⟨rfl, rfl⟩

theorem feed_cancel_inside (h : Tidy p) (hp : p.putback = none) (hb : isCancel b = true)
    (hs : p.state ≠ .ground) (hne : ¬ p.inStringEscape) : Resting (p.feed [b]).1 := by
  obtain ⟨hground, hput⟩ := dispatch_cancel hb hs hne
  obtain ⟨h8, hn⟩ := dispatch_utf8 p b hs
  have hneeded := h.needed hs
  have hnone := hput.trans hp
  rw [feed_one hp hnone (h.step_eq b)]
  exact ⟨hground, h8.trans (h.utf8 hneeded), hn.trans hneeded, hnone⟩

theorem feed_cancel_resting (h : Resting p) (hb : isCancel b = true) : Resting (p.feed [b]).1 := by
  have hstep : p.step b = ({ p.resetSeq with state := .ground }, [.execute b]) := by
    have hneeded : ¬ p.utf8Needed > 0 := by rw [h.utf8Needed]; exact Nat.lt_irrefl 0
    rw [step_of_ground h.state, Parser.ground, if_neg hneeded]
    rcases isCancel_cases hb with rfl | rfl
    · rfl
    · rfl
  have hput : ({ p.resetSeq with state := .ground } : Parser).putback = none := h.putback
  rw [feed_one h.putback hput hstep]
  exact ⟨rfl, h.utf8, h.utf8Needed, h.putback⟩

theorem feed_ground (h : Tidy p) (hp : p.putback = none) (hs : p.state = .ground)
    (hb : between 0x80 0xbf b = false) (rest : List UInt8) :
    ∃ q acts, Resting q ∧ p.feed (b :: rest) = after acts (q.feed (b :: rest)) := by
  by_cases hn : p.utf8Needed = 0
  · exact ⟨p, [], ⟨hs, h.utf8 hn, hn, hp⟩, rfl⟩
  · have hpos : p.utf8Needed > 0 := Nat.pos_of_ne_zero hn
    let q : Parser := { p with utf8 := [], utf8Needed := 0 }
    have hstep : p.step b = (q.reprocess b, [.print replacement]) := by
      rw [step_of_ground hs, Parser.ground, if_pos hpos, hb, if_neg Bool.false_ne_true, abortUtf8,
        if_pos hpos]
    have hq : q.putback = none := hp
    exact ⟨q, _, ⟨hs, rfl, rfl, hp⟩, feed_reprocess hp hq (.inl ⟨hs, rfl⟩) hstep rest⟩

theorem resting_cancel (hp : Fed p) (hb : isCancel b = true) : Resting (p.feed [b]).1 := by
  have htidy := hp.tidy
  have hnone := hp.putback
  have hlow : between 0x80 0xbf b = false := by
    rcases isCancel_cases hb with rfl | rfl
    · rfl
    · rfl
  have hne : b ≠ 0x5c := by
    rintro rfl
    cases hb
  by_cases hs : p.state = .ground
  · obtain ⟨q, acts, hq, hfeed⟩ := feed_ground htidy hnone hs hlow []
    rw [hfeed]
    exact feed_cancel_resting hq hb
  · by_cases hesc : p.inStringEscape
    · have hstep := step_stringEscape htidy hesc hne
      have hput : ({ p.resetSeq with state := .escape } : Parser).putback = none := hnone
      rw [feed_reprocess hnone hput (.inr rfl) hstep]
      have hneeded := htidy.needed hs
      refine feed_cancel_inside ⟨fun _ => htidy.utf8 hneeded, fun _ => hneeded⟩ hnone hb nofun ?_
      rintro (h | h | h)
      · cases h
      · cases h
      · cases h
    · exact feed_cancel_inside htidy hnone hb hs hesc

/-- Anywhere but in the body of a string ESC starts a sequence, with all its registers clear. -/
theorem dispatch_esc (hs : p.state ≠ .ground) (hbody : ¬ p.inString) (hne : ¬ p.inStringEscape) :
    p.dispatch 0x1b = ({ p.resetSeq with state := .escape }, []) := by
  unfold dispatch
  cases h : p.state with
  | ground => exact absurd h hs
  | oscEscape => exact absurd (.inl h) hne
  | dcsEscape => exact absurd (.inr (.inl h)) hne
  | sosEscape => exact absurd (.inr (.inr h)) hne
  | oscString => exact absurd (.inl h) hbody
  | dcsPassthrough => exact absurd (.inr (.inl h)) hbody
  | sosPmApc => exact absurd (.inr (.inr h)) hbody
  | escape =>
    change (p.resetSeq, []) = _
    rw [← h]
    rfl
  | escapeIntermediate | csiEntry | csiParam | csiIntermediate | csiIgnore => rfl

def escaped : Parser := { Parser.new with state := .escape }

theorem escaped_of_tidy (h8 : p.utf8 = []) (hn : p.utf8Needed = 0) (hp : p.putback = none) :
    ({ p.resetSeq with state := .escape } : Parser) = escaped := by
  unfold resetSeq escaped Parser.new
  rw [h8, hn, hp]

theorem feed_esc_resting (h : Resting p) : (p.feed [0x1b]).1 = escaped := by
  have hstep : p.step 0x1b = ({ p.resetSeq with state := .escape }, []) := by
    have hneeded : ¬ p.utf8Needed > 0 := by rw [h.utf8Needed]; exact Nat.lt_irrefl 0
    rw [step_of_ground h.state, Parser.ground, if_neg hneeded]
    rfl
  have hput : ({ p.resetSeq with state := .escape } : Parser).putback = none := h.putback
  rw [feed_one h.putback hput hstep]
  exact escaped_of_tidy h.utf8 h.utf8Needed h.putback

theorem feed_esc_inside (h : Tidy p) (hp : p.putback = none) (hs : p.state ≠ .ground)
    (hbody : ¬ p.inString) (hne : ¬ p.inStringEscape) : (p.feed [0x1b]).1 = escaped := by
  have hstep : p.step 0x1b = ({ p.resetSeq with state := .escape }, []) := by
    rw [h.step_eq, dispatch_esc hs hbody hne]
  have hput : ({ p.resetSeq with state := .escape } : Parser).putback = none := hp
  have hneeded := h.needed hs
  rw [feed_one hp hput hstep]
  exact escaped_of_tidy (h.utf8 hneeded) hneeded hp

theorem feed_esc (hp : Fed p) (hbody : ¬ p.inString) : (p.feed [0x1b]).1 = escaped := by
  have htidy := hp.tidy
  have hnone := hp.putback
  by_cases hs : p.state = .ground
  · obtain ⟨q, acts, hq, hfeed⟩ := feed_ground htidy hnone hs (b := 0x1b) rfl []
    rw [hfeed]
    exact feed_esc_resting hq
  · by_cases hesc : p.inStringEscape
    · have hstep := step_stringEscape (b := 0x1b) htidy hesc (by decide)
      have hput : ({ p.resetSeq with state := .escape } : Parser).putback = none := hnone
      have hneeded := htidy.needed hs
      rw [feed_reprocess hnone hput (.inr rfl) hstep, escaped_of_tidy (htidy.utf8 hneeded) hneeded hnone]
      rfl
    · exact feed_esc_inside htidy hnone hs hbody hesc

/-- Two parsers that no input tells apart by the calls they make. -/
def Indistinct (p q : Parser) : Prop := ∀ bytes, (p.feed bytes).2 = (q.feed bytes).2

theorem Alike.indistinct (h : Alike p q) : Indistinct p q := fun bytes => (h.feed bytes).1

theorem Resting.alike_new (h : Resting p) : Alike p Parser.new := by
  refine ⟨?_, fun hne => absurd h.state hne⟩
  unfold resetSeq Parser.new
  rw [h.state, h.utf8, h.utf8Needed, h.putback]

/-- CAN and SUB, and rest, leave a parser as good as new, and ESC outside the body of a string
one as good as a new one that was fed ESC. -/
theorem cancelled_as_new (p : Parser) (hp : Fed p) :
    (∀ b, isCancel b = true → Indistinct (p.feed [b]).1 Parser.new) ∧
      (p.isIdle → Indistinct p Parser.new) ∧
      (¬ p.inString → Indistinct (p.feed [0x1b]).1 (Parser.new.feed [0x1b]).1) := by
  refine ⟨fun b hb => (resting_cancel hp hb).alike_new.indistinct, fun hidle => ?_, fun hbody => ?_⟩
  · exact (alike_new hidle hp.utf8Ok).indistinct
  · rw [feed_esc hp hbody]
    exact fun _ => rfl

/-- A parser in the middle of a control sequence with a marker, parameters and an intermediate. -/
theorem cancelled_as_new_csi :
    let p := (Parser.new.feed [0x1b, 0x5b, 0x3f, 0x31, 0x3b, 0x37, 0x24]).1
    Indistinct (p.feed [0x18]).1 Parser.new ∧ p.params = [1, 7] ∧ p.intermediates = [0x3f, 0x24] := by
  refine ⟨(cancelled_as_new _ ⟨_, rfl⟩).1 0x18 rfl, ?_⟩
  decide

end Parser

end Rill.Vt
