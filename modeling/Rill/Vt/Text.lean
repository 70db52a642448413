import Mathlib.Algebra.Group.Nat.Defs
import Rill.Vt.Repaint
import Rill.Vt.Stream

/-!
# Bytes and their calls

What a parser at rest makes of the bytes the repaint writes: a printed scalar is
one `print`, a control sequence one `csi`, and the parser is at rest again.
-/

namespace Rill.Vt

open Rill.Vt.Parser

/-- A new parser makes these calls on these bytes, and is as new after them. -/
def Makes (bytes : List UInt8) (acts : List Action) : Prop :=
  Parser.new.feed bytes = (.new, acts)

namespace Makes

theorem nil : Makes [] [] := rfl

theorem append {bytes rest : List UInt8} {acts more : List Action} (h : Makes bytes acts)
    (k : Makes rest more) : Makes (bytes ++ rest) (acts ++ more) := by
  unfold Makes at h k ⊢
  rw [feed_append, h, k]

theorem ite {c : Prop} [Decidable c] {bytes rest : List UInt8} {acts more : List Action}
    (h : c → Makes bytes acts) (k : ¬ c → Makes rest more) :
    Makes (if c then bytes else rest) (if c then acts else more) := by
  split
  case isTrue hc => exact h hc
  case isFalse hc => exact k hc

theorem when {c : Prop} [Decidable c] {bytes : List UInt8} {acts : List Action}
    (h : Makes bytes acts) : Makes (if c then bytes else []) (if c then acts else []) :=
  ite (fun _ => h) fun _ => nil

end Makes

-- ---------------------------------------------------------------------------
-- Numbers
-- ---------------------------------------------------------------------------

def inParams (params : List UInt16) (paramAcc : Nat) : Parser :=
  { Parser.new with state := .csiParam, params, paramAcc }

theorem feed_one {p q : Parser} {b : UInt8} {acts : List Action} (hp : p.putback = none)
    (hq : q.putback = none) (h : p.step b = (q, acts)) : p.feed [b] = (q, acts) := by
  simp only [feed, settle_of_none 2 hp, h, settle_of_none 2 hq, List.nil_append, List.append_nil]

theorem digit_toNat : ∀ d < 10, (UInt8.ofNat (0x30 + d) - 0x30).toNat = d := by decide

theorem digit_class : ∀ d < 10, isC0 (UInt8.ofNat (0x30 + d)) = false ∧
    isCancel (UInt8.ofNat (0x30 + d)) = false ∧ UInt8.ofNat (0x30 + d) ≠ 0x1b ∧
    between 0x20 0x2f (UInt8.ofNat (0x30 + d)) = false ∧
    between 0x30 0x39 (UInt8.ofNat (0x30 + d)) = true := by decide

/-- A digit goes on with the number, while that is a word. -/
theorem feed_digit (params : List UInt16) {d n : Nat} (hd : d < 10) (hn : n * 10 + d ≤ 65535) :
    (inParams params n).feed [UInt8.ofNat (0x30 + d)] = (inParams params (n * 10 + d), []) := by
  obtain ⟨hc0, hcancel, hesc, hinter, hdigit⟩ := digit_class d hd
  refine feed_one rfl rfl ?_
  simp only [Parser.step, inParams, Parser.new, ne_eq, reduceCtorEq, not_false_eq_true, if_true,
    abortUtf8, Nat.lt_irrefl, gt_iff_lt, if_false, dispatch, csiParam, hc0, hcancel, hesc, hinter,
    hdigit, Bool.false_eq_true, pushDigit, digit_toNat d hd, List.nil_append]
  rw [Nat.min_eq_left hn]

theorem feed_firstDigit {d : Nat} (hd : d < 10) :
    ({ Parser.new with state := .csiEntry } : Parser).feed [UInt8.ofNat (0x30 + d)] =
      (inParams [] d, []) := by
  obtain ⟨hc0, hcancel, hesc, hinter, hdigit⟩ := digit_class d hd
  refine feed_one rfl rfl ?_
  simp only [Parser.step, inParams, Parser.new, ne_eq, reduceCtorEq, not_false_eq_true, if_true,
    abortUtf8, Nat.lt_irrefl, gt_iff_lt, if_false, dispatch, csiEntry, hc0, hcancel, hesc, hinter,
    hdigit, Bool.false_eq_true, pushDigit, digit_toNat d hd, List.nil_append]
  rw [Nat.zero_mul, Nat.zero_add, Nat.min_eq_left (by omega)]

/-- A start for a number: the digits of a number read as the number. -/
theorem feed_writeU16_go {p : Parser} {params : List UInt16}
    (hfirst : ∀ d < 10, p.feed [UInt8.ofNat (0x30 + d)] = (inParams params d, []))
    (fuel n : Nat) (hn : n ≤ 65535) (hfuel : n < 10 ^ (fuel + 1)) :
    p.feed (writeU16.go (fuel + 1) n) = (inParams params n, []) := by
  have hd : n % 10 < 10 := Nat.mod_lt _ (by decide)
  induction fuel generalizing n with
  | zero =>
    have hlt : n < 10 := by simpa using hfuel
    have hdiv : n / 10 = 0 := by omega
    simp only [writeU16.go, hdiv, if_true]
    rw [hfirst _ hd, Nat.mod_eq_of_lt hlt]
  | succ fuel ih =>
    unfold writeU16.go
    split
    case isTrue hdiv =>
      have hlt : n < 10 := by omega
      rw [hfirst _ hd, Nat.mod_eq_of_lt hlt]
    case isFalse =>
      have hrest : n / 10 < 10 ^ (fuel + 1) := by
        rw [Nat.pow_succ] at hfuel
        omega
      have hread := ih (n / 10) (by omega) hrest (Nat.mod_lt _ (by decide))
      have hsum : n / 10 * 10 + n % 10 = n := by omega
      rw [feed_append, hread, feed_digit params hd (by omega), hsum]
      rfl

theorem feed_writeU16 {p : Parser} {params : List UInt16}
    (hfirst : ∀ d < 10, p.feed [UInt8.ofNat (0x30 + d)] = (inParams params d, [])) (n : UInt16) :
    p.feed (writeU16 n) = (inParams params n.toNat, []) := by
  have hn := n.toNat_lt
  exact feed_writeU16_go hfirst 4 n.toNat (by omega) (by omega)

/-- The number after a separator. -/
theorem feed_nextU16 (params : List UInt16) (n : UInt16) :
    (inParams params 0).feed (writeU16 n) = (inParams params n.toNat, []) := by
  refine feed_writeU16 (fun d hd => ?_) n
  have h := feed_digit params (n := 0) hd (by omega)
  rwa [Nat.zero_mul, Nat.zero_add] at h

theorem ofNat_min_toNat (n : UInt16) : UInt16.ofNat (min n.toNat 65535) = n := by
  have hn := n.toNat_lt
  rw [Nat.min_eq_left (by omega), UInt16.ofNat_toNat]

theorem feed_separator (params : List UInt16) (n : UInt16) (h : params.length < maxParams) :
    (inParams params n.toNat).feed [0x3b] = (inParams (params ++ [n]) 0, []) := by
  refine feed_one rfl rfl ?_
  have hfinish : (inParams params n.toNat).finishParam = inParams (params ++ [n]) 0 := by
    simp only [inParams, finishParam, h, if_true, ofNat_min_toNat]
  exact Prod.ext hfinish rfl

theorem feed_final (params : List UInt16) (n : UInt16) (h : params.length < maxParams) {b : UInt8}
    (hb : b = 0x48 ∨ b = 0x6d) :
    (inParams params n.toNat).feed [b] = (.new, [.csi (params ++ [n]) [] false (charFrom b)]) := by
  refine feed_one rfl rfl ?_
  have hfinish : (inParams params n.toNat).finishParam = inParams (params ++ [n]) 0 := by
    simp only [inParams, finishParam, h, if_true, ofNat_min_toNat]
  obtain rfl | rfl := hb
  all_goals
    change (((inParams params n.toNat).finishParam.dispatchCsi _).1,
      [] ++ ((inParams params n.toNat).finishParam.dispatchCsi _).2) = _
    rw [hfinish]
    rfl

-- ---------------------------------------------------------------------------
-- Sequences
-- ---------------------------------------------------------------------------

namespace Makes

/-- `start` opens a sequence; what it makes afterwards, a new parser makes. -/
theorem of_start {start rest : List UInt8} {p : Parser} {acts : List Action}
    (hstart : Parser.new.feed start = (p, [])) (hrest : p.feed rest = (.new, acts)) :
    Makes (start ++ rest) acts := by
  unfold Makes
  rw [feed_append, hstart, hrest]
  rfl

theorem sgrReset : Makes sgrReset [.csi [0] [] false 'm'] := rfl

theorem sgr (n : UInt16) :
    Makes ([0x1b, 0x5b] ++ writeU16 n ++ [0x6d]) [.csi [n] [] false 'm'] := by
  rw [List.append_assoc]
  refine of_start (p := { Parser.new with state := .csiEntry }) rfl ?_
  rw [feed_append, feed_writeU16 (fun d hd => feed_firstDigit hd)]
  exact Prod.ext (congrArg Prod.fst (feed_final [] n (by decide) (.inr rfl)))
    (congrArg Prod.snd (feed_final [] n (by decide) (.inr rfl)))

/-- A sequence whose first parameters are read ends with one more. -/
theorem last {start : List UInt8} {params : List UInt16}
    (hstart : Parser.new.feed start = (inParams params 0, [])) (h : params.length < maxParams)
    (n : UInt16) {b : UInt8} (hb : b = 0x48 ∨ b = 0x6d) :
    Makes (start ++ (writeU16 n ++ [b])) [.csi (params ++ [n]) [] false (charFrom b)] := by
  refine of_start hstart ?_
  rw [feed_append, feed_nextU16, feed_final params n h hb]
  rfl

theorem next {start : List UInt8} {params : List UInt16}
    (hstart : Parser.new.feed start = (inParams params 0, [])) (h : params.length < maxParams)
    (n : UInt16) :
    Parser.new.feed (start ++ (writeU16 n ++ [0x3b])) = (inParams (params ++ [n]) 0, []) := by
  rw [feed_append, hstart, feed_append, feed_nextU16, feed_separator params n h]
  rfl

theorem cup (row col : UInt16) :
    Makes ([0x1b, 0x5b] ++ writeU16 row ++ [0x3b] ++ writeU16 col ++ [0x48])
      [.csi [row, col] [] false 'H'] := by
  have hrow : Parser.new.feed ([0x1b, 0x5b] ++ (writeU16 row ++ [0x3b])) = (inParams [row] 0, []) := by
    have hentry : Parser.new.feed [0x1b, 0x5b] = ({ Parser.new with state := .csiEntry }, []) := rfl
    rw [feed_append, hentry, feed_append, feed_writeU16 (fun d hd => feed_firstDigit hd),
      feed_separator [] row (by decide)]
    rfl
  have h := last hrow (by simp [maxParams]) col (.inl rfl)
  simp only [List.append_assoc] at h ⊢
  exact h

theorem colorStart (fg : Bool) (kind : UInt8) (h : kind = 0x35 ∨ kind = 0x32) :
    Parser.new.feed [0x1b, 0x5b, if fg then 0x33 else 0x34, 0x38, 0x3b, kind, 0x3b] =
      (inParams [if fg then 38 else 48, if kind = 0x35 then 5 else 2] 0, []) := by
  obtain rfl | rfl := h
  all_goals cases fg <;> rfl

/-- What an SGR colour reads as. -/
def colorActs (fg : Bool) : Color → List Action
  | .default => []
  | .indexed n =>
    if n < 8 then [.csi [(if fg then 30 else 40) + n.toUInt16] [] false 'm']
    else if n < 16 then [.csi [(if fg then 90 else 100) + (n.toUInt16 - 8)] [] false 'm']
    else [.csi [if fg then 38 else 48, 5, n.toUInt16] [] false 'm']
  | .rgb r g b =>
    [.csi [if fg then 38 else 48, 2, r.toUInt16, g.toUInt16, b.toUInt16] [] false 'm']

theorem emitColor (fg : Bool) (color : Color) : Makes (emitColor fg color) (colorActs fg color) := by
  cases color with
  | default => exact nil
  | indexed n =>
    refine ite (fun _ => sgr _) fun _ => ite (fun _ => sgr _) fun _ => ?_
    have h := last (colorStart fg 0x35 (.inl rfl)) (by simp [maxParams]) n.toUInt16 (.inr rfl)
    rwa [← List.append_assoc] at h
  | rgb r g b =>
    have hr := next (colorStart fg 0x32 (.inr rfl)) (by simp [maxParams]) r.toUInt16
    have hg := next hr (by simp [maxParams]) g.toUInt16
    have h := last hg (by simp [maxParams]) b.toUInt16 (.inr rfl)
    simp only [List.append_assoc] at h
    simp only [Vt.emitColor, List.append_assoc]
    exact h

def attrActs (attrs : UInt16) : List Action :=
  (if attrs &&& 1 ≠ 0 then [.csi [1] [] false 'm'] else []) ++
  (if attrs &&& 2 ≠ 0 then [.csi [4] [] false 'm'] else []) ++
  (if attrs &&& 4 ≠ 0 then [.csi [7] [] false 'm'] else [])

theorem emitAttrs (attrs : UInt16) : Makes (emitAttrs attrs) (attrActs attrs) := by
  have hbold : Makes [0x1b, 0x5b, 0x31, 0x6d] [.csi [1] [] false 'm'] := rfl
  have hunderline : Makes [0x1b, 0x5b, 0x34, 0x6d] [.csi [4] [] false 'm'] := rfl
  have hinverse : Makes [0x1b, 0x5b, 0x37, 0x6d] [.csi [7] [] false 'm'] := rfl
  exact (hbold.when.append hunderline.when).append hinverse.when

end Makes

-- ---------------------------------------------------------------------------
-- Scalars
-- ---------------------------------------------------------------------------

/-- A scalar that a terminal prints: no control character, which a parser would
execute or pass over. -/
def Printable (cp : UInt32) : Prop := cp.isValidChar ∧ 0x20 ≤ cp ∧ cp ≠ 0x7f

instance (cp : UInt32) : Decidable (Printable cp) :=
  inferInstanceAs (Decidable (cp.toNat.isValidChar ∧ 0x20 ≤ cp ∧ cp ≠ 0x7f))

theorem step_ascii : ∀ n < 0x7f, 0x20 ≤ n →
    Parser.new.step (UInt8.ofNat n) = (.new, [.print (Char.ofNat n)]) := by
  decide

theorem step_lead2 : ∀ n < 0x20, 2 ≤ n → Parser.new.step (UInt8.ofNat (n + 0xc0)) =
    (Parser.new.startUtf8 (UInt8.ofNat (n + 0xc0)) 2, []) := by
  decide

theorem step_lead3 : ∀ n < 0x10, Parser.new.step (UInt8.ofNat (n + 0xe0)) =
    (Parser.new.startUtf8 (UInt8.ofNat (n + 0xe0)) 3, []) := by
  decide

theorem step_lead4 : ∀ n < 5, Parser.new.step (UInt8.ofNat (n + 0xf0)) =
    (Parser.new.startUtf8 (UInt8.ofNat (n + 0xf0)) 4, []) := by
  decide

theorem between_tail : ∀ n < 0x40, between 0x80 0xbf (UInt8.ofNat (n + 0x80)) = true ∧
    (UInt8.ofNat (n + 0x80) &&& 0x3f).toNat = n := by
  decide

theorem lead2_bits : ∀ n < 0x20, (UInt8.ofNat (n + 0xc0) &&& 0x1f).toNat = n := by decide

theorem lead3_bits : ∀ n < 0x10, (UInt8.ofNat (n + 0xe0) &&& 0x0f).toNat = n := by decide

theorem lead4_bits : ∀ n < 0x08, (UInt8.ofNat (n + 0xf0) &&& 0x07).toNat = n := by decide

/-- A parser that has read these bytes of a scalar of `needed`. -/
def inScalar (utf8 : List UInt8) (utf8Needed : Nat) : Parser :=
  { Parser.new with utf8, utf8Needed }

/-- A continuation byte short of the last one is kept. -/
theorem feed_tail {utf8 rest : List UInt8} {needed n : Nat} {acts : List Action} (hn : n < 0x40)
    (h : utf8.length + 1 < needed)
    (hrest : (inScalar (utf8 ++ [UInt8.ofNat (n + 0x80)]) needed).feed rest = (.new, acts)) :
    (inScalar utf8 needed).feed (UInt8.ofNat (n + 0x80) :: rest) = (.new, acts) := by
  have hkept : (inScalar utf8 needed).feed [UInt8.ofNat (n + 0x80)] =
      (inScalar (utf8 ++ [UInt8.ofNat (n + 0x80)]) needed, []) := by
    refine feed_one rfl rfl ?_
    have hpos : needed > 0 := by omega
    have hne : utf8.length + 1 ≠ needed := by omega
    simp only [Parser.step, inScalar, Parser.new, ne_eq, not_true_eq_false, if_false, dispatch,
      ground, hpos, if_true, (between_tail n hn).1, List.length_append, List.length_singleton, hne,
      List.nil_append]
  rw [← List.singleton_append, feed_append, hkept, hrest]
  rfl

theorem Makes.of_lead {b : UInt8} {rest : List UInt8} {needed : Nat} {acts : List Action}
    (hlead : Parser.new.step b = (Parser.new.startUtf8 b needed, []))
    (hrest : (inScalar [b] needed).feed rest = (.new, acts)) : Makes (b :: rest) acts := by
  rw [← List.singleton_append]
  exact of_start (feed_one rfl rfl hlead) hrest

/-- The last one prints the scalar. -/
theorem feed_lastTail {utf8 : List UInt8} {needed n : Nat} {c : Char} (hn : n < 0x40)
    (h : utf8.length + 1 = needed)
    (hc : decodeUtf8 (utf8 ++ [UInt8.ofNat (n + 0x80)]) = some c) :
    (inScalar utf8 needed).feed [UInt8.ofNat (n + 0x80)] = (.new, [.print c]) := by
  refine feed_one rfl rfl ?_
  have hpos : needed > 0 := by omega
  have hlen : (utf8 ++ [UInt8.ofNat (n + 0x80)]).length = needed := by simpa using h
  have htake : (utf8 ++ [UInt8.ofNat (n + 0x80)]).take needed = utf8 ++ [UInt8.ofNat (n + 0x80)] :=
    List.take_of_length_le (by omega)
  simp only [Parser.step, inScalar, Parser.new, ne_eq, not_true_eq_false, if_false, dispatch, ground,
    hpos, if_true, (between_tail n hn).1, hlen, finishUtf8, htake, hc, List.nil_append,
    Option.getD_some]

/-- The number a scalar's parts make is the scalar. -/
theorem ofNat_scalar {least n : Nat} {c : Char} (hn : n = c.val.toNat) (hleast : least ≤ n) :
    (if least ≤ n ∧ n.isValidChar then some (Char.ofNat n) else none) = some c := by
  subst hn
  rw [if_pos ⟨hleast, c.valid⟩]
  exact congrArg some (Char.ofNat_toNat c)

theorem Makes.scalar (c : Char) (hlo : 0x20 ≤ c.val.toNat) (hne : c.val.toNat ≠ 0x7f) :
    Makes (String.utf8EncodeChar c) [.print c] := by
  have hmax : c.val.toNat < 0x110000 := by
    have h := c.valid
    unfold UInt32.isValidChar Nat.isValidChar at h
    omega
  have h6 : ∀ n, n % 0x40 < 0x40 := fun n => Nat.mod_lt n (by decide)
  unfold String.utf8EncodeChar
  dsimp only
  split
  case isTrue h =>
    refine (feed_one rfl rfl (step_ascii c.val.toNat (by omega) hlo)).trans ?_
    exact congrArg (fun d => (Parser.new, [Action.print d])) (Char.ofNat_toNat c)
  case isFalse =>
    split
    case isTrue h =>
      have ha : c.val.toNat / 64 % 0x20 < 0x20 := Nat.mod_lt _ (by decide)
      refine of_lead (step_lead2 _ ha (by omega)) (feed_lastTail (h6 _) rfl ?_)
      simp only [List.cons_append, List.nil_append, decodeUtf8, lead2_bits _ ha,
        (between_tail _ (h6 _)).2]
      exact ofNat_scalar (by omega) (by omega)
    case isFalse =>
      split
      case isTrue h =>
        have ha : c.val.toNat / 4096 % 0x10 < 0x10 := Nat.mod_lt _ (by decide)
        refine of_lead (step_lead3 _ ha) ?_
        refine feed_tail (h6 _) (by simp) (feed_lastTail (h6 _) rfl ?_)
        simp only [List.cons_append, List.nil_append, decodeUtf8, lead3_bits _ ha,
          (between_tail _ (h6 _)).2]
        exact ofNat_scalar (by omega) (by omega)
      case isFalse =>
        have ha : c.val.toNat / 262144 % 0x08 < 0x08 := Nat.mod_lt _ (by decide)
        refine of_lead (step_lead4 _ (by omega)) ?_
        refine feed_tail (h6 _) (by simp) (feed_tail (h6 _) (by simp) ?_)
        refine feed_lastTail (h6 _) rfl ?_
        simp only [List.cons_append, List.nil_append, decodeUtf8, lead4_bits _ ha,
          (between_tail _ (h6 _)).2]
        exact ofNat_scalar (by omega) (by omega)

theorem Makes.codepoint {cp : UInt32} (h : Printable cp) :
    Makes (pushCodepoint cp) [.print (Char.ofNat cp.toNat)] := by
  have hchar : Char.ofNat cp.toNat = ⟨cp, h.1⟩ := Char.ofNat_toNat ⟨cp, h.1⟩
  unfold pushCodepoint
  rw [dif_pos h.1, hchar]
  refine scalar ⟨cp, h.1⟩ ?_ fun k => h.2.2 (UInt32.toNat_inj.mp k)
  exact UInt32.le_iff_toNat_le.mp h.2.1

end Rill.Vt
