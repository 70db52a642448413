import Rill.Vt.Parser

/-!
# The parser over a stream

A byte put back is read again at once, so cutting the input does not matter;
and a parser at rest is as good as a new one, whatever its registers hold.
-/

namespace Rill.Vt

namespace Parser

-- ---------------------------------------------------------------------------
-- Putting back
-- ---------------------------------------------------------------------------

/-- A state in which no byte is put back. -/
def Quiet (p : Parser) : Prop := (p.state = .ground ∧ p.utf8Needed = 0) ∨ p.state = .escape

/-- What a sequence leaves alone: the character being collected, the byte put back. -/
def held (p : Parser) : List UInt8 × Nat × Option UInt8 := (p.utf8, p.utf8Needed, p.putback)

@[simp] theorem held_resetSeq (p : Parser) : p.resetSeq.held = p.held := rfl

@[simp] theorem held_pushInter (p : Parser) (b : UInt8) : (p.pushInter b).held = p.held := by
  unfold pushInter
  split <;> rfl

@[simp] theorem held_pushDigit (p : Parser) (b : UInt8) : (p.pushDigit b).held = p.held := rfl

@[simp] theorem held_finishParam (p : Parser) : p.finishParam.held = p.held := by
  unfold finishParam
  split <;> rfl

@[simp] theorem held_pushOsc (p : Parser) (b : UInt8) : (p.pushOsc b).held = p.held := by
  unfold pushOsc
  split <;> rfl

theorem putback_abortUtf8 (p : Parser) : p.abortUtf8.1.putback = p.putback := by
  unfold abortUtf8
  split <;> rfl

theorem utf8Needed_abortUtf8 (p : Parser) : p.abortUtf8.1.utf8Needed = 0 := by
  unfold abortUtf8
  split
  case isTrue => rfl
  case isFalse h => exact Nat.eq_zero_of_not_pos h

theorem state_abortUtf8 (p : Parser) : p.abortUtf8.1.state = p.state := by
  unfold abortUtf8
  split <;> rfl

/-- With no character begun, a byte in the ground state changes nothing, starts a sequence or a
new one, or begins a character. -/
theorem ground_start {p : Parser} (hn : ¬ 0 < p.utf8Needed) (b : UInt8) :
    (p.ground b).1 = p ∨ (∃ st, (p.ground b).1 = { p.resetSeq with state := st }) ∨
      ∃ n, 0 < n ∧ (p.ground b).1 = p.startUtf8 b n := by
  let P : Parser × List Action → Prop := fun r =>
    r.1 = p ∨ (∃ st, r.1 = { p.resetSeq with state := st }) ∨ ∃ n, 0 < n ∧ r.1 = p.startUtf8 b n
  have hsame : ∀ acts, P (p, acts) := fun _ => .inl rfl
  have hseq : ∀ st acts, P ({ p.resetSeq with state := st }, acts) := fun st _ => .inr (.inl ⟨st, rfl⟩)
  have hlead : ∀ n, 0 < n → P (p.startUtf8 b n, []) := fun n hpos => .inr (.inr ⟨n, hpos, rfl⟩)
  have hite : ∀ {c : Prop} [Decidable c] {x y}, P x → P y → P (if c then x else y) := by
    intro c _ x y hx hy
    split
    · exact hx
    · exact hy
  change P (p.ground b)
  rw [ground, if_neg hn]
  refine hite (hsame _) (hite (hseq .ground _) (hite (hseq .escape _) ?_))
  refine hite (hsame _) (hite (hsame _) (hite (hsame _) ?_))
  exact hite (hlead 2 (by decide)) (hite (hlead 3 (by decide)) (hite (hlead 4 (by decide)) (hsame _)))

theorem ground_putback (p : Parser) (b : UInt8) (hp : p.putback = none) (hs : p.state = .ground) :
    (p.ground b).1.putback = none ∨
      (0 < p.utf8Needed ∧ (p.ground b).1.putback = some b ∧ Quiet (p.ground b).1) := by
  by_cases hn : 0 < p.utf8Needed
  · rw [ground, if_pos hn]
    split
    · left
      dsimp only
      split
      · exact hp
      · exact hp
    · exact .inr ⟨hn, rfl, .inl ⟨(state_abortUtf8 p).trans hs, utf8Needed_abortUtf8 p⟩⟩
  · left
    obtain h | ⟨st, h⟩ | ⟨n, -, h⟩ := ground_start hn b
    all_goals exact (congrArg putback h).trans hp

theorem stringEscape_putback (p : Parser) (b : UInt8) (done : List Action) (hp : p.putback = none) :
    (p.stringEscape b done).1.putback = none ∨
      ((p.stringEscape b done).1.putback = some b ∧ Quiet (p.stringEscape b done).1) := by
  unfold stringEscape
  split
  · exact .inl hp
  · exact .inr ⟨rfl, .inr rfl⟩

theorem held_ite {c : Prop} [Decidable c] {x y : Parser × List Action} (hx : held x.1 = held p)
    (hy : held y.1 = held p) : held (if c then x else y).1 = held p := by
  split
  · exact hx
  · exact hy

theorem putback_eq (h : held q = held p) : q.putback = p.putback :=
  (Prod.mk.inj (Prod.mk.inj h).2).2

theorem held_escape (p : Parser) (b : UInt8) : (p.escape b).1.held = p.held := by
  unfold escape
  repeat' apply held_ite
  all_goals first | rfl | exact held_pushInter _ _

theorem held_escapeIntermediate (p : Parser) (b : UInt8) :
    (p.escapeIntermediate b).1.held = p.held := by
  unfold escapeIntermediate
  repeat' apply held_ite
  all_goals first | rfl | exact held_pushInter _ _

theorem held_csiEntry (p : Parser) (b : UInt8) : (p.csiEntry b).1.held = p.held := by
  unfold csiEntry
  repeat' apply held_ite
  all_goals first | rfl | exact held_pushInter _ _ | exact held_finishParam _

theorem held_csiParam (p : Parser) (b : UInt8) : (p.csiParam b).1.held = p.held := by
  unfold csiParam
  repeat' apply held_ite
  all_goals first
    | rfl
    | exact held_finishParam _
    | exact (held_pushInter _ _).trans (held_finishParam _)

theorem held_csiIntermediate (p : Parser) (b : UInt8) : (p.csiIntermediate b).1.held = p.held := by
  unfold csiIntermediate
  repeat' apply held_ite
  all_goals first | rfl | exact held_pushInter _ _

theorem held_csiIgnore (p : Parser) (b : UInt8) : (p.csiIgnore b).1.held = p.held := by
  unfold csiIgnore
  repeat' apply held_ite
  all_goals rfl

theorem held_oscString (p : Parser) (b : UInt8) : (p.oscString b).1.held = p.held := by
  unfold oscString
  repeat' apply held_ite
  all_goals first | rfl | exact held_pushOsc _ _

theorem held_dcsPassthrough (p : Parser) (b : UInt8) : (p.dcsPassthrough b).1.held = p.held := by
  unfold dcsPassthrough
  repeat' apply held_ite
  all_goals rfl

theorem held_sos (p : Parser) (b : UInt8) : (p.sos b).1.held = p.held := by
  unfold sos
  repeat' apply held_ite
  all_goals rfl

/-- What is put back is the byte just read, and the next reading takes it. -/
theorem dispatch_putback (p : Parser) (b : UInt8) (hp : p.putback = none) :
    (p.dispatch b).1.putback = none ∨
      (¬ Quiet p ∧ (p.dispatch b).1.putback = some b ∧ Quiet (p.dispatch b).1) := by
  unfold dispatch
  cases hs : p.state with
  | ground =>
    obtain h | ⟨hn, h⟩ := ground_putback p b hp hs
    · exact .inl h
    · refine .inr ⟨?_, h⟩
      simp only [Quiet, hs, reduceCtorEq, or_false, true_and]
      omega
  | oscEscape | dcsEscape | sosEscape =>
    obtain h | h := stringEscape_putback p b _ hp
    · exact .inl h
    · exact .inr ⟨by simp [Quiet, hs], h⟩
  | escape => exact .inl ((putback_eq (held_escape p b)).trans hp)
  | escapeIntermediate => exact .inl ((putback_eq (held_escapeIntermediate p b)).trans hp)
  | csiEntry => exact .inl ((putback_eq (held_csiEntry p b)).trans hp)
  | csiParam => exact .inl ((putback_eq (held_csiParam p b)).trans hp)
  | csiIntermediate => exact .inl ((putback_eq (held_csiIntermediate p b)).trans hp)
  | csiIgnore => exact .inl ((putback_eq (held_csiIgnore p b)).trans hp)
  | oscString => exact .inl ((putback_eq (held_oscString p b)).trans hp)
  | dcsPassthrough => exact .inl ((putback_eq (held_dcsPassthrough p b)).trans hp)
  | sosPmApc => exact .inl ((putback_eq (held_sos p b)).trans hp)

theorem quiet_abortUtf8 (p : Parser) (h : Quiet p) : Quiet p.abortUtf8.1 := by
  obtain ⟨hs, -⟩ | hs := h
  · exact .inl ⟨(state_abortUtf8 p).trans hs, utf8Needed_abortUtf8 p⟩
  · exact .inr ((state_abortUtf8 p).trans hs)

theorem step_putback (p : Parser) (b : UInt8) (hp : p.putback = none) :
    (p.step b).1.putback = none ∨
      (¬ Quiet p ∧ (p.step b).1.putback = some b ∧ Quiet (p.step b).1) := by
  unfold step
  by_cases hs : p.state = .ground
  · simpa [hs] using dispatch_putback p b hp
  · have h := dispatch_putback p.abortUtf8.1 b ((putback_abortUtf8 p).trans hp)
    have hquiet : ¬ Quiet p.abortUtf8.1 → ¬ Quiet p := mt (quiet_abortUtf8 p)
    simp only [hs, ne_eq, not_false_eq_true, if_true]
    exact h.imp_right fun ⟨hn, hrest⟩ => ⟨hquiet hn, hrest⟩

-- ---------------------------------------------------------------------------
-- Settling and cutting
-- ---------------------------------------------------------------------------

theorem settle_of_none (n : Nat) (h : p.putback = none) : settle n p = (p, []) := by
  cases n with
  | zero => rfl
  | succ n => simp [settle, h]

/-- Two turns read everything put back: the second starts in a quiet state. -/
theorem putback_settle (p : Parser) : (p.settle 2).1.putback = none := by
  cases hp : p.putback with
  | none => rw [settle_of_none 2 hp]; exact hp
  | some b =>
    simp only [settle, hp]
    obtain h | ⟨-, h, hquiet⟩ := step_putback { p with putback := none } b rfl
    · simp [h]
    · simp only [h]
      obtain h2 | ⟨hn, -⟩ :=
        step_putback { (({ p with putback := none } : Parser).step b).1 with putback := none } b rfl
      · exact h2
      · exact (hn hquiet).elim

theorem putback_feed (p : Parser) (bytes : List UInt8) : (p.feed bytes).1.putback = none := by
  induction bytes generalizing p with
  | nil => exact putback_settle p
  | cons b bytes ih => exact ih _

theorem feed_append (p : Parser) (a b : List UInt8) :
    p.feed (a ++ b) =
      (((p.feed a).1.feed b).1, (p.feed a).2 ++ ((p.feed a).1.feed b).2) := by
  induction a generalizing p with
  | nil =>
    simp only [List.nil_append, feed]
    have h := settle_of_none 2 (putback_settle p)
    cases b with
    | nil => simp [feed, h]
    | cons c b => simp [feed, h]
  | cons c a ih => simp only [List.cons_append, feed, ih, List.append_assoc]

-- ---------------------------------------------------------------------------
-- The loop's turns
-- ---------------------------------------------------------------------------

/-- The calls already made go before those the rest of the loop makes. -/
def after (acts : List Action) (x : Parser × List Action) : Parser × List Action :=
  (x.1, acts ++ x.2)

theorem feedLoop_putback {p : Parser} (n : Nat) (h : p.putback = some b) (rest : List UInt8) :
    p.feedLoop (n + 1) rest =
      (({ p with putback := none }.step b).1.feedLoop n rest).map
        (after ({ p with putback := none }.step b).2) := by
  simp only [feedLoop, h]
  rfl

theorem feedLoop_cons {p : Parser} (n : Nat) (h : p.putback = none) (b : UInt8) (rest : List UInt8) :
    p.feedLoop (n + 1) (b :: rest) =
      ((p.step b).1.feedLoop n rest).map (after (p.step b).2) := by
  have hp : { p with putback := none } = p := by rw [← h]
  simp only [feedLoop, h, hp]
  rfl

theorem feedLoop_nil {p : Parser} (n : Nat) (h : p.putback = none) :
    p.feedLoop (n + 1) [] = some (p, []) := by
  simp only [feedLoop, h]

theorem map_after (o : Option (Parser × List Action)) (acts more : List Action) :
    (o.map (after more)).map (after acts) = o.map (after (acts ++ more)) := by
  cases o with
  | none => rfl
  | some x => simp only [Option.map_some, after, List.append_assoc]

/-- Settling is so many turns of the loop as there are bytes put back one after
the other. -/
theorem feedLoop_settle (p : Parser) (k : Nat) :
    ∃ turns, turns ≤ k ∧ ∀ n rest, p.feedLoop (n + turns) rest =
      ((p.settle k).1.feedLoop n rest).map (after (p.settle k).2) := by
  induction k generalizing p with
  | zero =>
    refine ⟨0, Nat.le_refl 0, fun n rest => ?_⟩
    cases h : p.feedLoop n rest <;> simp [settle, after, h]
  | succ k ih =>
    cases hp : p.putback with
    | none =>
      refine ⟨0, Nat.zero_le _, fun n rest => ?_⟩
      rw [settle_of_none _ hp]
      cases p.feedLoop n rest <;> rfl
    | some b =>
      obtain ⟨turns, hle, hturns⟩ := ih ({ p with putback := none }.step b).1
      refine ⟨turns + 1, Nat.succ_le_succ hle, fun n rest => ?_⟩
      rw [← Nat.add_assoc, feedLoop_putback _ hp, hturns, map_after]
      simp only [settle, hp]

/-- Three turns a byte are enough: the byte, and two for what is put back. -/
theorem feedLoop_eq (p : Parser) (bytes : List UInt8) :
    ∃ turns, turns ≤ 3 * bytes.length + 2 ∧
      ∀ n, p.feedLoop (n + 1 + turns) bytes = some (p.feed bytes) := by
  induction bytes generalizing p with
  | nil =>
    obtain ⟨turns, hle, hturns⟩ := feedLoop_settle p 2
    refine ⟨turns, hle, fun n => ?_⟩
    rw [hturns, feedLoop_nil _ (putback_settle p)]
    simp only [Option.map_some, after, List.append_nil, feed]
  | cons b bytes ih =>
    obtain ⟨turns, hle, hturns⟩ := feedLoop_settle p 2
    obtain ⟨more, hmore, hrest⟩ := ih ((p.settle 2).1.step b).1
    refine ⟨more + 1 + turns, by simp only [List.length_cons]; omega, fun n => ?_⟩
    have hsplit : n + 1 + (more + 1 + turns) = n + 1 + more + 1 + turns := by omega
    rw [hsplit, hturns, feedLoop_cons _ (putback_settle p), hrest, map_after]
    simp only [Option.map_some, after, feed]

/-- The loop ends, with what `feed` says. -/
theorem feedLoop_of_lt (p : Parser) (bytes : List UInt8) (h : 3 * bytes.length + 2 < n) :
    p.feedLoop n bytes = some (p.feed bytes) := by
  obtain ⟨turns, hle, hturns⟩ := feedLoop_eq p bytes
  have hsplit : n = n - 1 - turns + 1 + turns := by omega
  rw [hsplit]
  exact hturns _

-- ---------------------------------------------------------------------------
-- Parsers at rest
-- ---------------------------------------------------------------------------

/-- `p` and `q` make the same calls: in the ground state the registers of a
sequence are not looked at before they are cleared. -/
def Alike (p q : Parser) : Prop := p.resetSeq = q.resetSeq ∧ (p.state ≠ .ground → p = q)

/-- The bytes collected of a character are empty only when none is awaited. -/
def Utf8Ok (p : Parser) : Prop := p.utf8 = [] → p.utf8Needed = 0

namespace Alike

theorem refl (p : Parser) : Alike p p := ⟨rfl, fun _ => rfl⟩

theorem ground_eq (h : Alike p q) (hs : p.state = .ground) :
    ∃ params paramAcc intermediates ignore osc,
      q = { p with params, paramAcc, intermediates, ignore, osc } := by
  refine ⟨q.params, q.paramAcc, q.intermediates, q.ignore, q.osc, ?_⟩
  have h := h.1
  simp only [resetSeq, mk.injEq, true_and] at h
  obtain ⟨hs, h8, hn, hp⟩ := h
  cases q
  simp_all

end Alike

/-- The same calls, and parsers alike after them. -/
def Same (x y : Parser × List Action) : Prop := x.2 = y.2 ∧ Alike x.1 y.1

theorem Same.ite {c : Prop} [Decidable c] {x x' y y' : Parser × List Action}
    (h : c → Same x x') (k : ¬ c → Same y y') :
    Same (if c then x else y) (if c then x' else y') := by
  split
  case isTrue hc => exact h hc
  case isFalse hc => exact k hc

/-- A call from the ground state that leads to a cleared parser or stays there. -/
theorem same_ground (p : Parser) (b : UInt8) (params : List UInt16) (paramAcc : Nat)
    (intermediates : List UInt8) (ignore : Bool) (osc : List UInt8) (hs : p.state = .ground) :
    Same (p.ground b) ({ p with params, paramAcc, intermediates, ignore, osc }.ground b) := by
  have hstay : ∀ acts, Same (p, acts)
      ({ p with params, paramAcc, intermediates, ignore, osc }, acts) :=
    fun _ => ⟨rfl, rfl, fun h => absurd hs h⟩
  refine Same.ite (fun hn => ?_) fun _ => ?_
  · refine Same.ite (fun _ => ?_) fun _ => ?_
    · exact Same.ite (fun _ => ⟨rfl, rfl, fun h => absurd hs h⟩) fun _ =>
        ⟨rfl, rfl, fun h => absurd hs h⟩
    · simp only [abortUtf8, hn, if_true]
      exact ⟨rfl, rfl, fun h => absurd hs h⟩
  · refine Same.ite (fun _ => hstay _) fun _ => ?_
    refine Same.ite (fun _ => ⟨rfl, rfl, fun _ => rfl⟩) fun _ => ?_
    refine Same.ite (fun _ => ⟨rfl, rfl, fun _ => rfl⟩) fun _ => ?_
    refine Same.ite (fun _ => hstay _) fun _ => Same.ite (fun _ => hstay _) fun _ => ?_
    refine Same.ite (fun _ => hstay _) fun _ => ?_
    have hstart : ∀ n, Same (p.startUtf8 b n, [])
        ({ p with params, paramAcc, intermediates, ignore, osc }.startUtf8 b n, []) :=
      fun _ => ⟨rfl, rfl, fun h => absurd hs h⟩
    refine Same.ite (fun _ => hstart 2) fun _ => Same.ite (fun _ => hstart 3) fun _ => ?_
    exact Same.ite (fun _ => hstart 4) fun _ => hstay _

namespace Alike

theorem step (h : Alike p q) (b : UInt8) : Same (p.step b) (q.step b) := by
  by_cases hs : p.state = .ground
  · obtain ⟨params, paramAcc, intermediates, ignore, osc, rfl⟩ := h.ground_eq hs
    have hg := same_ground p b params paramAcc intermediates ignore osc hs
    simpa [Parser.step, hs, dispatch] using hg
  · obtain rfl := h.2 hs
    exact ⟨rfl, refl _⟩

theorem clear (h : Alike p q) : Alike { p with putback := none } { q with putback := none } := by
  refine ⟨?_, fun hs => by rw [h.2 hs]⟩
  have h := h.1
  simp only [resetSeq, mk.injEq, true_and, and_true] at h ⊢
  exact ⟨h.1, h.2.1, h.2.2.1⟩

theorem putback_eq (h : Alike p q) : p.putback = q.putback := (mk.inj h.1).2.2.2.2.2.2.2.2

theorem settle (h : Alike p q) (n : Nat) : Same (p.settle n) (q.settle n) := by
  induction n generalizing p q with
  | zero => exact ⟨rfl, h⟩
  | succ n ih =>
    unfold Parser.settle
    rw [← h.putback_eq]
    cases p.putback with
    | none => exact ⟨rfl, h⟩
    | some b =>
      obtain ⟨hacts, halike⟩ := h.clear.step b
      obtain ⟨hrest, hend⟩ := ih halike
      exact ⟨by simp only [hacts, hrest], hend⟩

theorem feed (h : Alike p q) (bytes : List UInt8) : Same (p.feed bytes) (q.feed bytes) := by
  induction bytes generalizing p q with
  | nil => exact h.settle 2
  | cons b bytes ih =>
    obtain ⟨hfirst, hsettled⟩ := h.settle 2
    obtain ⟨hacts, hstep⟩ := hsettled.step b
    obtain ⟨hrest, hend⟩ := ih hstep
    exact ⟨by simp only [Parser.feed, hfirst, hacts, hrest], hend⟩

end Alike

-- ---------------------------------------------------------------------------
-- Idle parsers
-- ---------------------------------------------------------------------------

theorem utf8Ok_of_held (h : Utf8Ok p) (hq : held q = held p) : Utf8Ok q := by
  obtain ⟨h8, hn⟩ := Prod.mk.inj hq
  obtain ⟨hn, -⟩ := Prod.mk.inj hn
  unfold Utf8Ok at h ⊢
  rwa [h8, hn]

theorem utf8Ok_abortUtf8 (h : Utf8Ok p) : Utf8Ok p.abortUtf8.1 := by
  unfold abortUtf8
  split
  · exact fun _ => rfl
  · exact h

theorem utf8Ok_ground (h : Utf8Ok p) (b : UInt8) : Utf8Ok (p.ground b).1 := by
  by_cases hn : 0 < p.utf8Needed
  · rw [ground, if_pos hn]
    split
    · dsimp only
      split
      · exact fun _ => rfl
      · intro hnil
        simp at hnil
    · exact utf8Ok_abortUtf8 h
  · obtain hq | ⟨st, hq⟩ | ⟨n, -, hq⟩ := ground_start hn b
    · rwa [hq]
    · rw [hq]
      exact h
    · rw [hq]
      exact nofun

theorem utf8Ok_dispatch (h : Utf8Ok p) (b : UInt8) : Utf8Ok (p.dispatch b).1 := by
  unfold dispatch
  cases p.state with
  | ground => exact utf8Ok_ground h b
  | oscEscape | dcsEscape | sosEscape =>
    simp only [oscEscape, dcsEscape, sosEscape, stringEscape]
    split <;> exact h
  | escape => exact utf8Ok_of_held h (held_escape p b)
  | escapeIntermediate => exact utf8Ok_of_held h (held_escapeIntermediate p b)
  | csiEntry => exact utf8Ok_of_held h (held_csiEntry p b)
  | csiParam => exact utf8Ok_of_held h (held_csiParam p b)
  | csiIntermediate => exact utf8Ok_of_held h (held_csiIntermediate p b)
  | csiIgnore => exact utf8Ok_of_held h (held_csiIgnore p b)
  | oscString => exact utf8Ok_of_held h (held_oscString p b)
  | dcsPassthrough => exact utf8Ok_of_held h (held_dcsPassthrough p b)
  | sosPmApc => exact utf8Ok_of_held h (held_sos p b)

theorem utf8Ok_step (h : Utf8Ok p) (b : UInt8) : Utf8Ok (p.step b).1 := by
  unfold step
  by_cases hs : p.state = .ground
  · simpa [hs] using utf8Ok_dispatch h b
  · simpa [hs] using utf8Ok_dispatch (utf8Ok_abortUtf8 h) b

theorem utf8Ok_settle (h : Utf8Ok p) (n : Nat) : Utf8Ok (p.settle n).1 := by
  induction n generalizing p with
  | zero => exact h
  | succ n ih =>
    unfold settle
    split
    · exact h
    · exact ih (utf8Ok_step (p := { p with putback := none }) h _)

theorem utf8Ok_feed (h : Utf8Ok p) (bytes : List UInt8) : Utf8Ok (p.feed bytes).1 := by
  induction bytes generalizing p with
  | nil => exact utf8Ok_settle h 2
  | cons b bytes ih => exact ih (utf8Ok_step (utf8Ok_settle h 2) b)

theorem alike_new (h : p.isIdle) (hu : Utf8Ok p) : Alike p new := by
  simp only [isIdle, Bool.and_eq_true, decide_eq_true_eq, List.isEmpty_iff,
    Option.isNone_iff_eq_none] at h
  obtain ⟨⟨hs, hutf8⟩, hputback⟩ := h
  have hneeded := hu hutf8
  refine ⟨?_, fun hne => absurd hs hne⟩
  simp [resetSeq, new, hs, hutf8, hputback, hneeded]

end Parser

end Rill.Vt
