import Rill.Vt.Text

/-!
# The UTF-8 layer

From an idle parser text prints as it is, however it is cut into chunks. A sequence
that is broken off prints one U+FFFD, and what broke it off is read afresh.
-/

namespace Rill.Vt

namespace Parser

variable {p q : Parser}

-- ---------------------------------------------------------------------------
-- Chunks
-- ---------------------------------------------------------------------------

/-- The parsers an engine can have. -/
def Fed (p : Parser) : Prop := ∃ bytes, (Parser.new.feed bytes).1 = p

theorem Fed.putback (h : Fed p) : p.putback = none := by
  obtain ⟨bytes, rfl⟩ := h
  exact putback_feed _ bytes

theorem Fed.utf8Ok (h : Fed p) : Utf8Ok p := by
  obtain ⟨bytes, rfl⟩ := h
  exact utf8Ok_feed (fun _ => rfl) bytes

/-- The chunks one after the other, and the calls they make together. -/
def feedAll (p : Parser) : List (List UInt8) → Parser × List Action
  | [] => (p, [])
  | chunk :: chunks =>
    let (p, acts) := p.feed chunk
    let (p, more) := feedAll p chunks
    (p, acts ++ more)

theorem feedAll_eq (h : p.putback = none) (chunks : List (List UInt8)) :
    p.feedAll chunks = p.feed chunks.flatten := by
  induction chunks generalizing p with
  | nil =>
    rw [List.flatten_nil, feed, settle_of_none 2 h]
    rfl
  | cons chunk chunks ih =>
    rw [List.flatten_cons, feed_append, feedAll]
    dsimp only
    rw [ih (putback_feed p chunk)]

theorem isIdle_of_alike (h : Alike p q) (hq : q.isIdle) : p.isIdle := by
  have h := h.1
  simp only [resetSeq, mk.injEq, true_and] at h
  obtain ⟨hstate, hutf8, -, hputback⟩ := h
  unfold isIdle at hq ⊢
  rwa [hstate, hutf8, hputback]

/-- What a new parser makes of the bytes, an idle one does. -/
theorem feed_of_makes {bytes : List UInt8} {acts : List Action} (h : Makes bytes acts) (hp : Fed p)
    (hidle : p.isIdle) : (p.feed bytes).2 = acts ∧ (p.feed bytes).1.isIdle := by
  obtain ⟨hacts, halike⟩ := (alike_new hidle hp.utf8Ok).feed bytes
  rw [show Parser.new.feed bytes = (Parser.new, acts) from h] at hacts halike
  exact ⟨hacts, isIdle_of_alike halike rfl⟩

theorem makes_text {text : List Char} (h : ∀ c ∈ text, 0x20 ≤ c.val.toNat ∧ c.val.toNat ≠ 0x7f) :
    Makes (text.flatMap String.utf8EncodeChar) (text.map .print) := by
  induction text with
  | nil => exact .nil
  | cons c text ih =>
    obtain ⟨hlo, hne⟩ := h c List.mem_cons_self
    exact (Makes.scalar c hlo hne).append (ih fun d hd => h d (List.mem_cons_of_mem _ hd))

-- ---------------------------------------------------------------------------
-- Broken sequences
-- ---------------------------------------------------------------------------

/-- How many bytes the sequence of a lead byte has. -/
def sequenceLen (lead : UInt8) : Nat := if lead ≤ 0xdf then 2 else if lead ≤ 0xef then 3 else 4

theorem lead_class : ∀ n < 256, between 0xc2 0xf4 (UInt8.ofNat n) = true →
    isC0 (UInt8.ofNat n) = false ∧ isCancel (UInt8.ofNat n) = false ∧ UInt8.ofNat n ≠ 0x1b ∧
      between 0x20 0x7e (UInt8.ofNat n) = false ∧ UInt8.ofNat n ≠ 0x7f ∧
      between 0x80 0xc1 (UInt8.ofNat n) = false := by
  decide +kernel

theorem lead_len : ∀ n < 256, between 0xc2 0xf4 (UInt8.ofNat n) = true →
    (if between 0xc2 0xdf (UInt8.ofNat n) then 2
      else if between 0xe0 0xef (UInt8.ofNat n) then 3
      else 4) = sequenceLen (UInt8.ofNat n) ∧
    (between 0xc2 0xdf (UInt8.ofNat n) ∨ between 0xe0 0xef (UInt8.ofNat n) ∨
      between 0xf0 0xf4 (UInt8.ofNat n)) := by
  decide +kernel

structure Resting (p : Parser) : Prop where
  state : p.state = .ground
  utf8 : p.utf8 = []
  utf8Needed : p.utf8Needed = 0
  putback : p.putback = none

theorem resting_of_idle (hp : Fed p) (hidle : p.isIdle) : Resting p := by
  simp only [isIdle, Bool.and_eq_true, decide_eq_true_eq, List.isEmpty_iff] at hidle
  obtain ⟨⟨hs, hutf8⟩, -⟩ := hidle
  exact ⟨hs, hutf8, hp.utf8Ok hutf8, hp.putback⟩

theorem step_of_ground (hs : p.state = .ground) (b : UInt8) : p.step b = p.ground b := by
  simp only [step, dispatch, hs, ne_eq, not_true_eq_false, if_false, List.nil_append]

theorem step_lead (h : Resting p) {lead : UInt8} (hlead : between 0xc2 0xf4 lead = true) :
    p.step lead = (p.startUtf8 lead (sequenceLen lead), []) := by
  have hclass := lead_class lead.toNat lead.toNat_lt
  have hlen := lead_len lead.toNat lead.toNat_lt
  rw [UInt8.ofNat_toNat] at hclass hlen
  obtain ⟨hc0, hcancel, hesc, hascii, hdel, hlow⟩ := hclass hlead
  have hnone : ¬ p.utf8Needed > 0 := by rw [h.utf8Needed]; exact Nat.lt_irrefl 0
  obtain ⟨hlen, hsome⟩ := hlen hlead
  rw [step_of_ground h.state, ← hlen]
  simp only [ground, hnone, hc0, hcancel, hesc, hascii, hdel, hlow, if_false, Bool.false_eq_true]
  by_cases h2 : between 0xc2 0xdf lead = true
  · simp only [h2, if_true]
  · by_cases h3 : between 0xe0 0xef lead = true
    · simp only [h2, h3, if_true, if_false, Bool.false_eq_true]
    · have h4 : between 0xf0 0xf4 lead = true := (hsome.resolve_left h2).resolve_left h3
      simp only [h2, h3, h4, if_true, if_false, Bool.false_eq_true]

def collecting (p : Parser) (utf8 : List UInt8) (utf8Needed : Nat) : Parser :=
  { p with utf8, utf8Needed }

/-- Short of the last byte, continuation bytes are collected and nothing is called. -/
theorem feed_collecting (h : Resting p) (utf8 : List UInt8) {tails : List UInt8} {needed : Nat}
    (htails : ∀ b ∈ tails, between 0x80 0xbf b = true) (hlen : utf8.length + tails.length < needed) :
    (p.collecting utf8 needed).feed tails = (p.collecting (utf8 ++ tails) needed, []) := by
  have hput : ∀ utf8, (p.collecting utf8 needed).putback = none := fun _ => h.putback
  induction tails generalizing utf8 with
  | nil => rw [feed, settle_of_none 2 (hput _), List.append_nil]
  | cons b tails ih =>
    have hb := htails b List.mem_cons_self
    rw [List.length_cons] at hlen
    have hkept : (p.collecting utf8 needed).step b = (p.collecting (utf8 ++ [b]) needed, []) := by
      have hpos : needed > 0 := by omega
      have hne : utf8.length + 1 ≠ needed := by omega
      rw [step_of_ground (p := p.collecting utf8 needed) h.state]
      simp only [ground, collecting, hpos, hb, if_true, List.length_append, List.length_singleton, hne,
        if_false]
    have hrest := ih (utf8 ++ [b]) (fun c hc => htails c (List.mem_cons_of_mem _ hc))
      (by rw [List.length_append, List.length_singleton]; omega)
    rw [← List.singleton_append, feed_append, feed_one (hput _) (hput _) hkept, hrest,
      List.append_assoc]
    rfl

/-- What breaks a sequence off is read as from rest, after the U+FFFD. -/
theorem feed_broken (h : Resting p) {utf8 : List UInt8} {needed : Nat} (hneeded : 0 < needed)
    {b : UInt8} (hb : between 0x80 0xbf b = false) :
    (p.collecting utf8 needed).feed [b] = ((p.feed [b]).1, .print replacement :: (p.feed [b]).2) := by
  have hclear : ({ p with utf8 := [], utf8Needed := 0, putback := none } : Parser) = p := by
    rw [← h.utf8, ← h.utf8Needed, ← h.putback]
  have haborted : (p.collecting utf8 needed).step b =
      ({ p with utf8 := [], utf8Needed := 0, putback := some b }, [.print replacement]) := by
    rw [step_of_ground (p := p.collecting utf8 needed) h.state]
    simp only [ground, collecting, gt_iff_lt, hneeded, hb, if_true, Bool.false_eq_true, if_false,
      abortUtf8, reprocess]
  have hread : (p.step b).1.putback = none := by
    obtain hnone | ⟨hquiet, -⟩ := step_putback p b h.putback
    · exact hnone
    · exact absurd (.inl ⟨h.state, h.utf8Needed⟩) hquiet
  have hrest : p.feed [b] = p.step b := by
    simp only [feed, settle_of_none 2 h.putback, settle_of_none 2 hread, List.nil_append,
      List.append_nil]
  have hput : (p.collecting utf8 needed).putback = none := h.putback
  rw [hrest]
  simp only [feed, settle_of_none 2 hput, haborted]
  simp only [settle, hclear, hread, List.append_nil, List.nil_append, List.singleton_append]

/-- Text prints as its scalars, in chunks of any size; and a lead byte with too few
continuation bytes prints one U+FFFD, after which the parser reads on as if idle. -/
theorem utf8_layer (p : Parser) (hp : Fed p) (hidle : p.isIdle) :
    (∀ (text : List Char) (chunks : List (List UInt8)),
      (∀ c ∈ text, 0x20 ≤ c.val.toNat ∧ c.val.toNat ≠ 0x7f) →
      chunks.flatten = text.flatMap String.utf8EncodeChar →
      (p.feedAll chunks).2 = text.map .print ∧ (p.feedAll chunks).1.isIdle) ∧
      ∀ (lead : UInt8) (tails : List UInt8) (b : UInt8), between 0xc2 0xf4 lead = true →
        (∀ c ∈ tails, between 0x80 0xbf c = true) → 1 + tails.length < sequenceLen lead →
        between 0x80 0xbf b = false →
        p.feed (lead :: tails ++ [b]) =
          ((p.feed [b]).1, .print replacement :: (p.feed [b]).2) := by
  have hrest := resting_of_idle hp hidle
  refine ⟨fun text chunks htext hchunks => ?_, fun lead tails b hlead htails hlen hb => ?_⟩
  · rw [feedAll_eq hp.putback, hchunks]
    exact feed_of_makes (makes_text htext) hp hidle
  · have hfirst : p.feed (lead :: tails) =
        (p.collecting (lead :: tails) (sequenceLen lead), []) := by
      have hcollect := feed_collecting hrest [lead] htails
        (by rw [List.length_singleton]; exact hlen)
      have hlead : p.step lead = (p.collecting [lead] (sequenceLen lead), []) := step_lead hrest hlead
      have hput : (p.collecting [lead] (sequenceLen lead)).putback = none := hrest.putback
      rw [← List.singleton_append, feed_append, feed_one hrest.putback hput hlead, hcollect]
      rfl
    rw [feed_append, hfirst, feed_broken hrest (by omega) hb]
    rfl

/-- A two-byte scalar cut in the middle, and a lead byte before a letter. -/
theorem utf8_layer_cut : (Parser.new.feedAll [[0xc3], [0xa9]]).2 = [.print 'é'] ∧
    (Parser.new.feed [0xe2, 0x82, 0x41]).2 = [.print replacement, .print 'A'] := by
  obtain ⟨htext, hbroken⟩ := utf8_layer .new ⟨[], rfl⟩ rfl
  refine ⟨(htext ['é'] [[0xc3], [0xa9]] (List.forall_mem_singleton.mpr (by decide)) (by decide)).1, ?_⟩
  exact congrArg Prod.snd (hbroken 0xe2 [0x82] 0x41 rfl (List.forall_mem_singleton.mpr rfl)
    (by decide) rfl)

end Parser

end Rill.Vt
