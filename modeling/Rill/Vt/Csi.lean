import Rill.Vt.Utf8

/-!
# The CSI recogniser

Which control sequences are acted on: a grammar of the bytes between `ESC [` and
the final byte, and that the five states of the parser accept exactly it.
-/

namespace Rill.Vt

-- ---------------------------------------------------------------------------
-- The grammar
-- ---------------------------------------------------------------------------

def isMarker (b : UInt8) : Bool := between 0x3c 0x3f b

def isDigit (b : UInt8) : Bool := between 0x30 0x39 b

def isSeparator (b : UInt8) : Bool := b = 0x3a || b = 0x3b

def isInter (b : UInt8) : Bool := between 0x20 0x2f b

def isHigh (b : UInt8) : Bool := 0x80 ≤ b

def decimal (digits : List UInt8) : Nat := digits.foldl (fun n b => n * 10 + (b - 0x30).toNat) 0

/-- The value of one parameter, saturated; an empty one is 0. -/
def fieldValue (digits : List UInt8) : UInt16 := UInt16.ofNat (min (decimal digits) 65535)

/-- The parameters between the marker and the intermediates. Where there is neither
a marker nor any byte of a parameter there is none, not an empty one. -/
def csiFields (marker middle : List UInt8) : List UInt16 :=
  if marker = [] ∧ middle = [] then [] else (middle.splitOnP isSeparator).map fieldValue

/-- `CsiGrammar body params intermediates`: the sequence `ESC [ body final` is well
formed, with these parameters and these intermediates. -/
inductive CsiGrammar : List UInt8 → List UInt16 → List UInt8 → Prop
  | mk (marker middle last : List UInt8) (hmarker : ∀ b ∈ marker, isMarker b)
      (hone : marker.length ≤ 1) (hmiddle : ∀ b ∈ middle, isDigit b ∨ isSeparator b)
      (hlast : ∀ b ∈ last, isInter b) (hfields : (csiFields marker middle).length ≤ 32)
      (hinters : (marker ++ last).length ≤ 2) :
      CsiGrammar (marker ++ middle ++ last) (csiFields marker middle) (marker ++ last)

theorem decimal_concat (digits : List UInt8) (b : UInt8) :
    decimal (digits ++ [b]) = decimal digits * 10 + (b - 0x30).toNat := by
  rw [decimal, List.foldl_append]
  rfl

/-- The parameters, when `read` are the digits of the first so far. -/
def fieldsFrom (read rest : List UInt8) : List UInt16 :=
  ((rest.splitOnP isSeparator).modifyHead (read ++ ·)).map fieldValue

theorem fieldsFrom_nil (read : List UInt8) : fieldsFrom read [] = [fieldValue read] := by
  rw [fieldsFrom, List.splitOnP_nil, List.modifyHead_cons, List.append_nil]
  rfl

theorem fieldsFrom_separator {b : UInt8} (hb : isSeparator b = true) (read rest : List UInt8) :
    fieldsFrom read (b :: rest) = fieldValue read :: fieldsFrom [] rest := by
  have hid : (rest.splitOnP isSeparator).modifyHead ([] ++ ·) = rest.splitOnP isSeparator :=
    congrFun List.modifyHead_id _
  rw [fieldsFrom, fieldsFrom, List.splitOnP_cons_eq_if_modifyHead, if_pos hb, hid,
    List.modifyHead_cons, List.append_nil]
  rfl

theorem fieldsFrom_digit {b : UInt8} (hb : isSeparator b = false) (read rest : List UInt8) :
    fieldsFrom read (b :: rest) = fieldsFrom (read ++ [b]) rest := by
  rw [fieldsFrom, fieldsFrom, List.splitOnP_cons_eq_if_modifyHead, if_neg (by rw [hb]; decide),
    List.modifyHead_modifyHead]
  refine congrArg (fun f => ((rest.splitOnP isSeparator).modifyHead f).map fieldValue) ?_
  funext l
  rw [Function.comp, List.append_assoc, List.singleton_append]

-- ---------------------------------------------------------------------------
-- Byte classes
-- ---------------------------------------------------------------------------

theorem control_class : ∀ b : UInt8, 0x20 ≤ b → isC0 b = false ∧ isCancel b = false ∧ b ≠ 0x1b := by
  intro b h
  grind [isC0, isCancel, between]

theorem inter_class : ∀ b : UInt8, isInter b → 0x20 ≤ b ∧ between 0x20 0x2f b = true ∧
    isDigit b = false ∧ isSeparator b = false := by
  intro b h
  grind [isInter, between, isDigit, isSeparator]

theorem digit_byte : ∀ b : UInt8, isDigit b → 0x20 ≤ b ∧ between 0x20 0x2f b = false ∧
    between 0x30 0x39 b = true ∧ between 0x30 0x3f b = true ∧ isSeparator b = false := by
  intro b h
  grind [isDigit, between, isSeparator]

theorem separator_class : ∀ b : UInt8, isSeparator b → 0x20 ≤ b ∧ between 0x20 0x2f b = false ∧
    between 0x30 0x39 b = false ∧ between 0x30 0x3f b = true ∧ (b = 0x3a || b = 0x3b) = true := by
  intro b h
  grind [isSeparator, between]

theorem marker_class : ∀ b : UInt8, isMarker b → 0x20 ≤ b ∧ between 0x20 0x2f b = false ∧
    between 0x30 0x39 b = false ∧ between 0x30 0x3f b = true ∧ (b = 0x3a || b = 0x3b) = false ∧
      between 0x3c 0x3f b = true := by
  intro b h
  grind [isMarker, between]

theorem high_class : ∀ b : UInt8, isHigh b → 0x20 ≤ b ∧ between 0x20 0x2f b = false ∧
    between 0x30 0x39 b = false ∧ between 0x30 0x3f b = false ∧ (b = 0x3a || b = 0x3b) = false ∧
      between 0x3c 0x3f b = false ∧ isFinal b = false ∧ b ≠ 0x7f := by
  intro b h
  grind [isHigh, between, isFinal]

theorem final_class : ∀ b : UInt8, isFinal b → 0x20 ≤ b ∧ between 0x20 0x2f b = false ∧
    between 0x30 0x39 b = false ∧ between 0x30 0x3f b = false ∧ (b = 0x3a || b = 0x3b) = false ∧
      between 0x3c 0x3f b = false := by
  intro b h
  grind [isFinal, between]

def isBody (b : UInt8) : Bool := between 0x20 0x3f b || isHigh b

theorem body_tests : ∀ b : UInt8, isBody b → 0x20 ≤ b ∧ isFinal b = false := by
  intro b h
  grind [isBody, isHigh, isFinal, between]

theorem body_class : ∀ b : UInt8, isBody b →
    isInter b ∨ isDigit b ∨ isSeparator b ∨ isMarker b ∨ isHigh b := by
  intro b h
  grind [isBody, isInter, isDigit, isSeparator, isMarker, isHigh, between]

namespace Parser

-- ---------------------------------------------------------------------------
-- Steps inside a sequence
-- ---------------------------------------------------------------------------

def inCsi (state : State) (params : List UInt16) (paramAcc : Nat) (intermediates : List UInt8)
    (ignore : Bool) : Parser :=
  { Parser.new with state, params, paramAcc, intermediates, ignore }

variable {state : State} {params : List UInt16} {paramAcc : Nat} {intermediates : List UInt8}
  {ignore : Bool} {b : UInt8}

theorem step_inCsi (hs : state ≠ .ground) :
    (inCsi state params paramAcc intermediates ignore).step b =
      (inCsi state params paramAcc intermediates ignore).dispatch b := by
  have hstate : (inCsi state params paramAcc intermediates ignore).state ≠ .ground := hs
  have habort : (inCsi state params paramAcc intermediates ignore).abortUtf8 =
      (inCsi state params paramAcc intermediates ignore, []) := rfl
  rw [step, if_pos hstate, habort]
  rfl

/-- What the ground state makes of the final byte, once the sequence is over. -/
def csiEnded (params : List UInt16) (intermediates : List UInt8) (ignore : Bool) (final : UInt8) :
    Parser × List Action :=
  (.new, [.csi params intermediates ignore (charFrom final)])

theorem dispatchCsi_inCsi (final : UInt8) :
    (inCsi state params paramAcc intermediates ignore).dispatchCsi final =
      csiEnded params intermediates ignore final := rfl

theorem entry_inter (hb : isInter b) :
    (inCsi .csiEntry [] 0 [] false).step b = (inCsi .csiIntermediate [] 0 [b] false, []) := by
  obtain ⟨h20, hinter, -⟩ := inter_class b hb
  obtain ⟨hc0, hcancel, hesc⟩ := control_class b h20
  rw [step_inCsi (by decide)]
  simp only [dispatch, inCsi, csiEntry, hc0, hcancel, hesc, hinter, if_false, if_true,
    Bool.false_eq_true, pushInter]
  rfl

theorem entry_marker (hb : isMarker b) :
    (inCsi .csiEntry [] 0 [] false).step b = (inCsi .csiParam [] 0 [b] false, []) := by
  obtain ⟨h20, hinter, hdigit, -, hsep, hmarker⟩ := marker_class b hb
  obtain ⟨hc0, hcancel, hesc⟩ := control_class b h20
  rw [step_inCsi (by decide)]
  simp only [dispatch, inCsi, csiEntry, hc0, hcancel, hesc, hinter, hdigit, hsep, hmarker, if_false,
    if_true, Bool.false_eq_true, pushInter]
  rfl

theorem entry_final (hb : isFinal b) :
    (inCsi .csiEntry [] 0 [] false).step b = csiEnded [] [] false b := by
  obtain ⟨h20, hinter, hdigit, -, hsep, hmarker⟩ := final_class b hb
  obtain ⟨hc0, hcancel, hesc⟩ := control_class b h20
  rw [step_inCsi (by decide)]
  simp only [dispatch, inCsi, csiEntry, hc0, hcancel, hesc, hinter, hdigit, hsep, hmarker, hb, if_false,
    if_true, Bool.false_eq_true]
  rfl

/-- Other bytes are read as they are behind the first parameter's start. -/
theorem entry_param (hb : isDigit b ∨ isSeparator b ∨ isHigh b) :
    (inCsi .csiEntry [] 0 [] false).step b = (inCsi .csiParam [] 0 [] false).step b := by
  rw [step_inCsi (by decide), step_inCsi (by decide)]
  rcases hb with hb | hb | hb
  · obtain ⟨h20, hinter, hdigit, -⟩ := digit_byte b hb
    obtain ⟨hc0, hcancel, hesc⟩ := control_class b h20
    simp only [dispatch, inCsi, csiEntry, csiParam, hc0, hcancel, hesc, hinter, hdigit, if_false,
      if_true, Bool.false_eq_true]
    rfl
  · obtain ⟨h20, hinter, hdigit, -, hsep⟩ := separator_class b hb
    obtain ⟨hc0, hcancel, hesc⟩ := control_class b h20
    simp only [dispatch, inCsi, csiEntry, csiParam, hc0, hcancel, hesc, hinter, hdigit, hsep, if_false,
      if_true, Bool.false_eq_true]
    rfl
  · obtain ⟨h20, hinter, hdigit, -, hsep, hmarker, hfinal, hdel⟩ := high_class b hb
    obtain ⟨hc0, hcancel, hesc⟩ := control_class b h20
    simp only [dispatch, inCsi, csiEntry, csiParam, hc0, hcancel, hesc, hinter, hdigit, hsep, hmarker,
      hfinal, hdel, if_false, Bool.false_eq_true]

theorem finishParam_inCsi (h : params.length < 32) :
    (inCsi state params paramAcc intermediates ignore).finishParam =
      inCsi state (params ++ [UInt16.ofNat (min paramAcc 65535)]) 0 intermediates ignore :=
  if_pos h

theorem finishParam_full (h : 32 ≤ params.length) :
    (inCsi state params paramAcc intermediates ignore).finishParam =
      inCsi state params 0 intermediates true :=
  if_neg (Nat.not_lt.mpr h)

theorem pushInter_inCsi (h : intermediates.length < 2) :
    (inCsi state params paramAcc intermediates ignore).pushInter b =
      inCsi state params paramAcc (intermediates ++ [b]) ignore :=
  if_pos h

theorem pushInter_full (h : 2 ≤ intermediates.length) :
    (inCsi state params paramAcc intermediates ignore).pushInter b =
      inCsi state params paramAcc intermediates true :=
  if_neg (Nat.not_lt.mpr h)

theorem param_digit (hb : isDigit b) :
    (inCsi .csiParam params paramAcc intermediates ignore).step b =
      (inCsi .csiParam params (min (paramAcc * 10 + (b - 0x30).toNat) 65535) intermediates ignore,
        []) := by
  obtain ⟨h20, hinter, hdigit, -⟩ := digit_byte b hb
  obtain ⟨hc0, hcancel, hesc⟩ := control_class b h20
  rw [step_inCsi (by decide)]
  simp only [dispatch, inCsi, csiParam, hc0, hcancel, hesc, hinter, hdigit, if_false, if_true,
    Bool.false_eq_true]
  rfl

theorem param_separator (hb : isSeparator b) :
    (inCsi .csiParam params paramAcc intermediates ignore).step b =
      ((inCsi .csiParam params paramAcc intermediates ignore).finishParam, []) := by
  obtain ⟨h20, hinter, hdigit, -, hsep⟩ := separator_class b hb
  obtain ⟨hc0, hcancel, hesc⟩ := control_class b h20
  rw [step_inCsi (by decide)]
  simp only [dispatch, inCsi, csiParam, hc0, hcancel, hesc, hinter, hdigit, hsep, if_false, if_true,
    Bool.false_eq_true]

theorem param_inter (hb : isInter b) :
    (inCsi .csiParam params paramAcc intermediates ignore).step b =
      ({ (inCsi .csiParam params paramAcc intermediates ignore).finishParam.pushInter b with
          state := .csiIntermediate }, []) := by
  obtain ⟨h20, hinter, -⟩ := inter_class b hb
  obtain ⟨hc0, hcancel, hesc⟩ := control_class b h20
  rw [step_inCsi (by decide)]
  simp only [dispatch, inCsi, csiParam, hc0, hcancel, hesc, hinter, if_false, if_true,
    Bool.false_eq_true]

theorem param_marker (hb : isMarker b) :
    (inCsi .csiParam params paramAcc intermediates ignore).step b =
      (inCsi .csiIgnore params paramAcc intermediates ignore, []) := by
  obtain ⟨h20, hinter, hdigit, -, hsep, hmarker⟩ := marker_class b hb
  obtain ⟨hc0, hcancel, hesc⟩ := control_class b h20
  rw [step_inCsi (by decide)]
  simp only [dispatch, inCsi, csiParam, hc0, hcancel, hesc, hinter, hdigit, hsep, hmarker, if_false,
    if_true, Bool.false_eq_true]

theorem param_high (hb : isHigh b) :
    (inCsi .csiParam params paramAcc intermediates ignore).step b =
      (inCsi .csiParam params paramAcc intermediates true, []) := by
  obtain ⟨h20, hinter, hdigit, -, hsep, hmarker, hfinal, hdel⟩ := high_class b hb
  obtain ⟨hc0, hcancel, hesc⟩ := control_class b h20
  rw [step_inCsi (by decide)]
  simp only [dispatch, inCsi, csiParam, hc0, hcancel, hesc, hinter, hdigit, hsep, hmarker, hfinal,
    hdel, if_false, Bool.false_eq_true]

theorem param_final (hb : isFinal b) :
    (inCsi .csiParam params paramAcc intermediates ignore).step b =
      (inCsi .csiParam params paramAcc intermediates ignore).finishParam.dispatchCsi b := by
  obtain ⟨h20, hinter, hdigit, -, hsep, hmarker⟩ := final_class b hb
  obtain ⟨hc0, hcancel, hesc⟩ := control_class b h20
  rw [step_inCsi (by decide)]
  simp only [dispatch, inCsi, csiParam, hc0, hcancel, hesc, hinter, hdigit, hsep, hmarker, hb, if_false,
    if_true, Bool.false_eq_true]

theorem intermediate_inter (hb : isInter b) :
    (inCsi .csiIntermediate params paramAcc intermediates ignore).step b =
      ((inCsi .csiIntermediate params paramAcc intermediates ignore).pushInter b, []) := by
  obtain ⟨h20, hinter, -⟩ := inter_class b hb
  obtain ⟨hc0, hcancel, hesc⟩ := control_class b h20
  rw [step_inCsi (by decide)]
  simp only [dispatch, inCsi, csiIntermediate, hc0, hcancel, hesc, hinter, if_false, if_true,
    Bool.false_eq_true]

theorem intermediate_final (hb : isFinal b) :
    (inCsi .csiIntermediate params paramAcc intermediates ignore).step b =
      csiEnded params intermediates ignore b := by
  obtain ⟨h20, hinter, -, hparam, -⟩ := final_class b hb
  obtain ⟨hc0, hcancel, hesc⟩ := control_class b h20
  rw [step_inCsi (by decide)]
  simp only [dispatch, inCsi, csiIntermediate, hc0, hcancel, hesc, hinter, hparam, hb, if_false,
    if_true, Bool.false_eq_true]
  rfl

/-- Past the intermediates no other byte may stand before the final one. -/
theorem intermediate_other (params : List UInt16) (paramAcc : Nat) (intermediates : List UInt8)
    (ignore : Bool) (hb : isBody b) (hother : isInter b = false) :
    ∃ ignore', (inCsi .csiIntermediate params paramAcc intermediates ignore).step b =
      (inCsi .csiIgnore params paramAcc intermediates ignore', []) := by
  obtain ⟨h20, hfinal⟩ := body_tests b hb
  obtain ⟨hc0, hcancel, hesc⟩ := control_class b h20
  have hinter : between 0x20 0x2f b = false := hother
  rw [step_inCsi (by decide)]
  simp only [dispatch, inCsi, csiIntermediate, hc0, hcancel, hesc, hinter, hfinal, if_false,
    Bool.false_eq_true]
  by_cases hparam : between 0x30 0x3f b = true
  · exact ⟨ignore, by rw [if_pos hparam]⟩
  · exact ⟨true, by rw [if_neg hparam]⟩

theorem ignore_body (hb : isBody b) :
    (inCsi .csiIgnore params paramAcc intermediates ignore).step b =
      (inCsi .csiIgnore params paramAcc intermediates ignore, []) := by
  obtain ⟨h20, hfinal⟩ := body_tests b hb
  obtain ⟨hc0, hcancel, hesc⟩ := control_class b h20
  rw [step_inCsi (by decide)]
  simp only [dispatch, inCsi, csiIgnore, hc0, hcancel, hesc, hfinal, if_false, Bool.false_eq_true]

theorem ignore_final (hb : isFinal b) :
    (inCsi .csiIgnore params paramAcc intermediates ignore).step b = (.new, []) := by
  obtain ⟨h20, -⟩ := final_class b hb
  obtain ⟨hc0, hcancel, hesc⟩ := control_class b h20
  rw [step_inCsi (by decide)]
  simp only [dispatch, inCsi, csiIgnore, hc0, hcancel, hesc, hb, if_false, if_true, Bool.false_eq_true]
  rfl

-- ---------------------------------------------------------------------------
-- Sequences given up
-- ---------------------------------------------------------------------------

/-- A sequence that will not be acted on whatever follows. -/
inductive Dead : Parser → Prop
  | skipped (params : List UInt16) (paramAcc : Nat) (intermediates : List UInt8) (ignore : Bool) :
      Dead (inCsi .csiIgnore params paramAcc intermediates ignore)
  | param (params : List UInt16) (paramAcc : Nat) (intermediates : List UInt8) :
      Dead (inCsi .csiParam params paramAcc intermediates true)
  | intermediate (params : List UInt16) (paramAcc : Nat) (intermediates : List UInt8) :
      Dead (inCsi .csiIntermediate params paramAcc intermediates true)

/-- The sequence is over, with no call but one to ignore. -/
def Dropped (x : Parser × List Action) : Prop :=
  x.1 = .new ∧ (x.2 = [] ∨ ∃ params intermediates final, x.2 = [.csi params intermediates true final])

theorem dropped_ended (params : List UInt16) (intermediates : List UInt8) (final : UInt8) :
    Dropped (csiEnded params intermediates true final) := ⟨rfl, .inr ⟨_, _, _, rfl⟩⟩

/-- An ignored sequence stays one, whether or not there is room for what it collects. -/
theorem finishParam_ignored (state : State) (params : List UInt16) (paramAcc : Nat)
    (intermediates : List UInt8) :
    ∃ params', (inCsi state params paramAcc intermediates true).finishParam =
      inCsi state params' 0 intermediates true := by
  by_cases h : params.length < 32
  · exact ⟨_, finishParam_inCsi h⟩
  · exact ⟨_, finishParam_full (Nat.not_lt.mp h)⟩

theorem pushInter_ignored (state : State) (params : List UInt16) (paramAcc : Nat)
    (intermediates : List UInt8) (b : UInt8) :
    ∃ intermediates', (inCsi state params paramAcc intermediates true).pushInter b =
      inCsi state params paramAcc intermediates' true := by
  by_cases h : intermediates.length < 2
  · exact ⟨_, pushInter_inCsi h⟩
  · exact ⟨_, pushInter_full (Nat.not_lt.mp h)⟩

namespace Dead

variable {p : Parser}

theorem step (h : Dead p) (hb : isBody b) : ∃ q, p.step b = (q, []) ∧ Dead q := by
  cases h with
  | skipped params paramAcc intermediates ignore => exact ⟨_, ignore_body hb, .skipped _ _ _ _⟩
  | param params paramAcc intermediates =>
    obtain ⟨params', hfinish⟩ := finishParam_ignored .csiParam params paramAcc intermediates
    rcases body_class b hb with hb | hb | hb | hb | hb
    · obtain ⟨intermediates', hpush⟩ := pushInter_ignored .csiParam params' 0 intermediates b
      refine ⟨_, param_inter hb, ?_⟩
      rw [hfinish, hpush]
      exact .intermediate params' 0 intermediates'
    · exact ⟨_, param_digit hb, .param _ _ _⟩
    · refine ⟨_, param_separator hb, ?_⟩
      rw [hfinish]
      exact .param _ _ _
    · exact ⟨_, param_marker hb, .skipped _ _ _ _⟩
    · exact ⟨_, param_high hb, .param _ _ _⟩
  | intermediate params paramAcc intermediates =>
    by_cases hinter : isInter b = true
    · obtain ⟨intermediates', hpush⟩ := pushInter_ignored .csiIntermediate params paramAcc intermediates b
      refine ⟨_, intermediate_inter hinter, ?_⟩
      rw [hpush]
      exact .intermediate _ _ _
    · obtain ⟨ignore, hstep⟩ := intermediate_other params paramAcc intermediates true hb
        (Bool.not_eq_true _ ▸ hinter)
      exact ⟨_, hstep, .skipped _ _ _ _⟩

theorem final (h : Dead p) (hb : isFinal b) : Dropped (p.step b) := by
  cases h with
  | skipped params paramAcc intermediates ignore =>
    rw [ignore_final hb]
    exact ⟨rfl, .inl rfl⟩
  | param params paramAcc intermediates =>
    obtain ⟨params', hfinish⟩ := finishParam_ignored .csiParam params paramAcc intermediates
    rw [param_final hb, hfinish]
    exact dropped_ended _ _ _
  | intermediate params paramAcc intermediates =>
    rw [intermediate_final hb]
    exact dropped_ended _ _ _

theorem putback (h : Dead p) : p.putback = none := by
  cases h <;> rfl

end Dead

-- ---------------------------------------------------------------------------
-- Whole sequences
-- ---------------------------------------------------------------------------

theorem feed_step {p q : Parser} {rest : List UInt8} (hp : p.putback = none) (hq : q.putback = none)
    (h : p.step b = (q, [])) : p.feed (b :: rest) = q.feed rest := by
  rw [← List.singleton_append, feed_append, feed_one hp hq h]
  rfl

theorem feed_congr {p q : Parser} {rest : List UInt8} (hp : p.putback = none) (hq : q.putback = none)
    (h : p.step b = q.step b) : p.feed (b :: rest) = q.feed (b :: rest) := by
  simp only [Parser.feed, settle_of_none 2 hp, settle_of_none 2 hq, h]

theorem Dead.feed {p : Parser} {body : List UInt8} {final : UInt8} (h : Dead p)
    (hbody : ∀ b ∈ body, isBody b) (hfinal : isFinal final) : Dropped (p.feed (body ++ [final])) := by
  induction body generalizing p with
  | nil =>
    have hdropped := h.final hfinal
    have hnew : (p.step final).1.putback = none := by
      rw [hdropped.1]
      rfl
    rw [List.nil_append, feed_one h.putback hnew rfl]
    exact hdropped
  | cons b body ih =>
    obtain ⟨q, hstep, hq⟩ := h.step (hbody b List.mem_cons_self)
    rw [List.cons_append, feed_step h.putback hq.putback hstep]
    exact ih hq fun c hc => hbody c (List.mem_cons_of_mem _ hc)

/-- The byte over which the sequence is given up, and the rest of it. -/
theorem feed_dead {p q : Parser} {body : List UInt8} {final : UInt8} (hp : p.putback = none)
    (hstep : p.step b = (q, [])) (hq : Dead q) (hbody : ∀ c ∈ b :: body, isBody c)
    (hfinal : isFinal final) : Dropped (p.feed (b :: body ++ [final])) := by
  rw [List.cons_append, feed_step hp hq.putback hstep]
  exact hq.feed (fun c hc => hbody c (List.mem_cons_of_mem _ hc)) hfinal

theorem param_inter_room (hb : isInter b) (hparams : params.length < 32)
    (hinters : intermediates.length < 2) :
    (inCsi .csiParam params paramAcc intermediates false).step b =
      (inCsi .csiIntermediate (params ++ [UInt16.ofNat (min paramAcc 65535)]) 0 (intermediates ++ [b])
        false, []) := by
  rw [param_inter hb, finishParam_inCsi hparams, pushInter_inCsi hinters]
  rfl

theorem param_final_room (hb : isFinal b) (hparams : params.length < 32) :
    (inCsi .csiParam params paramAcc intermediates false).step b =
      csiEnded (params ++ [UInt16.ofNat (min paramAcc 65535)]) intermediates false b := by
  rw [param_final hb, finishParam_inCsi hparams]
  rfl

theorem feed_inters (params : List UInt16) (paramAcc : Nat) (intermediates : List UInt8)
    {last : List UInt8} {final : UInt8} (hlast : ∀ b ∈ last, isInter b)
    (hinters : intermediates.length + last.length ≤ 2) (hfinal : isFinal final) :
    (inCsi .csiIntermediate params paramAcc intermediates false).feed (last ++ [final]) =
      csiEnded params (intermediates ++ last) false final := by
  induction last generalizing intermediates with
  | nil =>
    rw [List.nil_append, List.append_nil]
    exact feed_one rfl rfl (intermediate_final hfinal)
  | cons b last ih =>
    rw [List.length_cons] at hinters
    have hstep : (inCsi .csiIntermediate params paramAcc intermediates false).step b =
        (inCsi .csiIntermediate params paramAcc (intermediates ++ [b]) false, []) := by
      rw [intermediate_inter (hlast b List.mem_cons_self), pushInter_inCsi (by omega)]
    have hrest := ih (intermediates ++ [b])
      (fun c hc => hlast c (List.mem_cons_of_mem _ hc))
      (by rw [List.length_append, List.length_singleton]; omega)
    rw [List.cons_append, feed_step rfl rfl hstep, hrest, List.append_assoc, List.singleton_append]

theorem ofNat_fieldValue (read : List UInt8) :
    UInt16.ofNat (min (min (decimal read) 65535) 65535) = fieldValue read := by
  rw [Nat.min_assoc, Nat.min_self]
  rfl

/-- With the digits `read` of a parameter behind it, the parser reads the other
parameters and the intermediates, while there is room. -/
theorem feed_params (params : List UInt16) (intermediates : List UInt8) {middle last : List UInt8}
    {final : UInt8} (read : List UInt8) (hmiddle : ∀ b ∈ middle, isDigit b ∨ isSeparator b)
    (hlast : ∀ b ∈ last, isInter b)
    (hparams : params.length + (fieldsFrom read middle).length ≤ 32)
    (hinters : intermediates.length + last.length ≤ 2) (hfinal : isFinal final) :
    (inCsi .csiParam params (min (decimal read) 65535) intermediates false).feed
        (middle ++ last ++ [final]) =
      csiEnded (params ++ fieldsFrom read middle) (intermediates ++ last) false final := by
  induction middle generalizing params read with
  | nil =>
    rw [fieldsFrom_nil, List.length_singleton] at hparams
    rw [List.nil_append, fieldsFrom_nil, ← ofNat_fieldValue]
    cases last with
    | nil =>
      rw [List.nil_append, List.append_nil]
      exact feed_one rfl rfl (param_final_room hfinal hparams)
    | cons b last =>
      rw [List.length_cons] at hinters
      have hstep : (inCsi .csiParam params (min (decimal read) 65535) intermediates false).step b = _ :=
        param_inter_room (hlast b List.mem_cons_self) hparams (by omega)
      have hrest := feed_inters (params ++ [UInt16.ofNat (min (min (decimal read) 65535) 65535)]) 0
        (intermediates ++ [b]) (fun c hc => hlast c (List.mem_cons_of_mem _ hc))
        (by rw [List.length_append, List.length_singleton]; omega) hfinal
      rw [List.cons_append, feed_step rfl rfl hstep, hrest, List.append_assoc intermediates,
        List.singleton_append]
  | cons b middle ih =>
    have hrest := fun read params => ih params read
      (fun c hc => hmiddle c (List.mem_cons_of_mem _ hc))
    rcases hmiddle b List.mem_cons_self with hb | hb
    · obtain ⟨-, -, -, -, hsep⟩ := digit_byte b hb
      rw [fieldsFrom_digit hsep] at hparams ⊢
      have hacc : min (min (decimal read) 65535 * 10 + (b - 0x30).toNat) 65535 =
          min (decimal (read ++ [b])) 65535 := by
        rw [decimal_concat]
        omega
      have hstep : (inCsi .csiParam params (min (decimal read) 65535) intermediates false).step b = _ :=
        param_digit hb
      rw [hacc] at hstep
      rw [List.cons_append, List.cons_append, feed_step rfl rfl hstep]
      exact hrest _ _ hparams
    · rw [fieldsFrom_separator hb] at hparams ⊢
      rw [List.length_cons] at hparams
      have hstep : (inCsi .csiParam params (min (decimal read) 65535) intermediates false).step b = _ :=
        param_separator hb
      rw [finishParam_inCsi (by omega), ofNat_fieldValue] at hstep
      rw [List.cons_append, List.cons_append, feed_step rfl rfl hstep]
      have hnext := hrest [] (params ++ [fieldValue read])
        (by rw [List.length_append, List.length_singleton]; omega)
      rw [List.append_assoc params] at hnext
      exact hnext

-- ---------------------------------------------------------------------------
-- Every body
-- ---------------------------------------------------------------------------

/-- Behind the parameters: intermediates while there is room, or nothing comes of it. -/
theorem intermediate_parts (params : List UInt16) (paramAcc : Nat) (intermediates : List UInt8)
    {body : List UInt8} {final : UInt8} (hbody : ∀ b ∈ body, isBody b) (hfinal : isFinal final)
    (hroom : intermediates.length ≤ 2) :
    ((∀ b ∈ body, isInter b) ∧ intermediates.length + body.length ≤ 2) ∨
      Dropped ((inCsi .csiIntermediate params paramAcc intermediates false).feed (body ++ [final])) := by
  induction body generalizing intermediates with
  | nil => exact .inl ⟨fun _ h => absurd h List.not_mem_nil, hroom⟩
  | cons b body ih =>
    by_cases hb : isInter b = true
    · have hstep : (inCsi .csiIntermediate params paramAcc intermediates false).step b = _ :=
        intermediate_inter hb
      by_cases hlen : intermediates.length < 2
      · rw [pushInter_inCsi hlen] at hstep
        have hgrown : (intermediates ++ [b]).length = intermediates.length + 1 := List.length_append
        rw [List.cons_append, feed_step rfl rfl hstep]
        refine (ih _ (fun c hc => hbody c (List.mem_cons_of_mem _ hc)) (by omega)).imp_left ?_
        rintro ⟨hinters, hsum⟩
        exact ⟨List.forall_mem_cons.mpr ⟨hb, hinters⟩, by rw [List.length_cons]; omega⟩
      · rw [pushInter_full (Nat.not_lt.mp hlen)] at hstep
        exact .inr (feed_dead rfl hstep (.intermediate _ _ _) hbody hfinal)
    · obtain ⟨ignore, hstep⟩ := intermediate_other params paramAcc intermediates false
        (hbody b List.mem_cons_self) (Bool.not_eq_true _ ▸ hb)
      exact .inr (feed_dead rfl hstep (.skipped _ _ _ _) hbody hfinal)

/-- Behind `read`: the other parameters and the intermediates while there is room,
or nothing comes of it. -/
theorem param_parts (params : List UInt16) (intermediates : List UInt8) {body : List UInt8}
    {final : UInt8} (read : List UInt8) (hbody : ∀ b ∈ body, isBody b) (hfinal : isFinal final)
    (hroom : intermediates.length ≤ 2) :
    (∃ middle last, body = middle ++ last ∧ (∀ b ∈ middle, isDigit b ∨ isSeparator b) ∧
      (∀ b ∈ last, isInter b) ∧ params.length + (fieldsFrom read middle).length ≤ 32 ∧
      intermediates.length + last.length ≤ 2) ∨
      Dropped ((inCsi .csiParam params (min (decimal read) 65535) intermediates false).feed
        (body ++ [final])) := by
  induction body generalizing params read with
  | nil =>
    by_cases hlen : params.length < 32
    · exact .inl ⟨[], [], rfl, fun _ h => absurd h List.not_mem_nil, fun _ h => absurd h List.not_mem_nil,
        by rw [fieldsFrom_nil]; exact hlen, hroom⟩
    · have hstep : (inCsi .csiParam params (min (decimal read) 65535) intermediates false).step final =
          _ := param_final hfinal
      rw [finishParam_full (Nat.not_lt.mp hlen), dispatchCsi_inCsi] at hstep
      rw [List.nil_append, feed_one rfl rfl hstep]
      exact .inr (dropped_ended _ _ _)
  | cons b body ih =>
    have hrest := fun read params => ih params read
      (fun c hc => hbody c (List.mem_cons_of_mem _ hc))
    rcases body_class b (hbody b List.mem_cons_self) with hb | hb | hb | hb | hb
    · -- the first intermediate: what follows it is read without parameters
      have hstep : (inCsi .csiParam params (min (decimal read) 65535) intermediates false).step b = _ :=
        param_inter hb
      by_cases hlen : params.length < 32
      · by_cases hinters : intermediates.length < 2
        · rw [finishParam_inCsi hlen, pushInter_inCsi hinters] at hstep
          have hgrown : (intermediates ++ [b]).length = intermediates.length + 1 := List.length_append
          have hparts := intermediate_parts
            (params ++ [UInt16.ofNat (min (min (decimal read) 65535) 65535)]) 0 (intermediates ++ [b])
            (fun c hc => hbody c (List.mem_cons_of_mem _ hc)) hfinal (by omega)
          rw [List.cons_append, feed_step rfl rfl hstep]
          refine hparts.imp_left ?_
          rintro ⟨hlast, hsum⟩
          refine ⟨[], b :: body, rfl, fun _ h => absurd h List.not_mem_nil,
            List.forall_mem_cons.mpr ⟨hb, hlast⟩, by rw [fieldsFrom_nil]; exact hlen, ?_⟩
          rw [List.length_cons]
          omega
        · rw [finishParam_inCsi hlen, pushInter_full (Nat.not_lt.mp hinters)] at hstep
          exact .inr (feed_dead rfl hstep (.intermediate _ _ _) hbody hfinal)
      · rw [finishParam_full (Nat.not_lt.mp hlen)] at hstep
        obtain ⟨intermediates', hpush⟩ := pushInter_ignored .csiParam params 0 intermediates b
        rw [hpush] at hstep
        exact .inr (feed_dead rfl hstep (.intermediate _ _ _) hbody hfinal)
    · obtain ⟨-, -, -, -, hsep⟩ := digit_byte b hb
      have hacc : min (min (decimal read) 65535 * 10 + (b - 0x30).toNat) 65535 =
          min (decimal (read ++ [b])) 65535 := by
        rw [decimal_concat]
        omega
      have hstep : (inCsi .csiParam params (min (decimal read) 65535) intermediates false).step b = _ :=
        param_digit hb
      rw [hacc] at hstep
      rw [List.cons_append, feed_step rfl rfl hstep]
      refine (hrest _ _).imp_left ?_
      rintro ⟨middle, last, rfl, hmiddle, hlast, hfields, hinters⟩
      refine ⟨b :: middle, last, rfl, List.forall_mem_cons.mpr ⟨.inl hb, hmiddle⟩, hlast, ?_, hinters⟩
      rw [fieldsFrom_digit hsep]
      exact hfields
    · have hstep : (inCsi .csiParam params (min (decimal read) 65535) intermediates false).step b = _ :=
        param_separator hb
      by_cases hlen : params.length < 32
      · rw [finishParam_inCsi hlen] at hstep
        have hgrown : ∀ value : UInt16, (params ++ [value]).length = params.length + 1 :=
          fun _ => List.length_append
        rw [List.cons_append, feed_step rfl rfl hstep]
        refine (hrest [] _).imp_left ?_
        rintro ⟨middle, last, rfl, hmiddle, hlast, hfields, hinters⟩
        refine ⟨b :: middle, last, rfl, List.forall_mem_cons.mpr ⟨.inr hb, hmiddle⟩, hlast, ?_, hinters⟩
        rw [hgrown] at hfields
        rw [fieldsFrom_separator hb, List.length_cons]
        omega
      · rw [finishParam_full (Nat.not_lt.mp hlen)] at hstep
        exact .inr (feed_dead rfl hstep (.param _ _ _) hbody hfinal)
    · exact .inr (feed_dead rfl (param_marker hb) (.skipped _ _ _ _) hbody hfinal)
    · exact .inr (feed_dead rfl (param_high hb) (.param _ _ _) hbody hfinal)

theorem csiFields_of_marker (m : UInt8) (middle : List UInt8) :
    csiFields [m] middle = fieldsFrom [] middle := by
  have hid : (middle.splitOnP isSeparator).modifyHead ([] ++ ·) = middle.splitOnP isSeparator :=
    congrFun List.modifyHead_id _
  rw [csiFields, if_neg (fun h => absurd h.1 (List.cons_ne_nil _ _)), fieldsFrom, hid]

theorem csiFields_of_middle (b : UInt8) (middle : List UInt8) :
    csiFields [] (b :: middle) = fieldsFrom [] (b :: middle) := by
  have hid : ((b :: middle).splitOnP isSeparator).modifyHead ([] ++ ·) =
      (b :: middle).splitOnP isSeparator := congrFun List.modifyHead_id _
  rw [csiFields, if_neg (fun h => absurd h.2 (List.cons_ne_nil _ _)), fieldsFrom, hid]

/-- What the grammar derives is called, with its parameters and intermediates. -/
theorem feed_grammar {body : List UInt8} {final : UInt8} (h : CsiGrammar body params intermediates)
    (hfinal : isFinal final) :
    (inCsi .csiEntry [] 0 [] false).feed (body ++ [final]) =
      csiEnded params intermediates false final := by
  cases h with
  | mk marker middle last hmarker hone hmiddle hlast hfields hinters =>
    cases marker with
    | nil =>
      cases middle with
      | nil =>
        cases last with
        | nil => exact feed_one rfl rfl (entry_final hfinal)
        | cons b last =>
          have hrest := feed_inters [] 0 [b]
            (fun c hc => hlast c (List.mem_cons_of_mem _ hc))
            (by simpa [Nat.add_comm] using hinters) hfinal
          rw [List.nil_append, List.nil_append, List.cons_append,
            feed_step rfl rfl (entry_inter (hlast b List.mem_cons_self)), hrest]
          rfl
      | cons b middle =>
        have hb : isDigit b ∨ isSeparator b ∨ isHigh b :=
          (hmiddle b List.mem_cons_self).imp_right .inl
        rw [csiFields_of_middle] at hfields ⊢
        have hrest := feed_params [] [] [] hmiddle hlast
          (by simpa using hfields) (by simpa using hinters) hfinal
        rw [List.nil_append, List.nil_append] at hrest
        rw [List.nil_append, List.append_assoc, List.cons_append, feed_congr rfl rfl (entry_param hb),
          ← List.cons_append, ← List.append_assoc]
        exact hrest
    | cons m marker =>
      obtain rfl : marker = [] := List.length_eq_zero_iff.mp (Nat.le_zero.mp (Nat.succ_le_succ_iff.mp hone))
      rw [csiFields_of_marker] at hfields ⊢
      have hrest := feed_params [] [m] [] hmiddle hlast
        (by simpa using hfields) (by simpa [Nat.add_comm] using hinters) hfinal
      rw [List.nil_append] at hrest
      rw [List.append_assoc, List.append_assoc, List.singleton_append,
        feed_step rfl rfl (entry_marker (hmarker m List.mem_cons_self)), ← List.append_assoc]
      exact hrest

theorem param_start {body : List UInt8} {final : UInt8} (hb : isDigit b ∨ isSeparator b ∨ isHigh b)
    (hbody : ∀ c ∈ b :: body, isBody c) (hfinal : isFinal final) :
    (∃ params intermediates, CsiGrammar (b :: body) params intermediates) ∨
      Dropped ((inCsi .csiEntry [] 0 [] false).feed (b :: body ++ [final])) := by
  have hparts := param_parts [] [] [] hbody hfinal (by decide)
  rw [List.cons_append, feed_congr rfl rfl (entry_param hb)]
  refine hparts.imp_left ?_
  rintro ⟨middle, last, hsplit, hmiddle, hlast, hfields, hinters⟩
  cases middle with
  | nil =>
    -- the first byte is none of the intermediates
    rw [List.nil_append] at hsplit
    have hinter : between 0x20 0x2f b = true := hlast b (by rw [← hsplit]; exact List.mem_cons_self)
    have hnot : between 0x20 0x2f b = false := by
      rcases hb with hb | hb | hb
      · exact (digit_byte b hb).2.1
      · exact (separator_class b hb).2.1
      · exact (high_class b hb).2.1
    rw [hnot] at hinter
    exact absurd hinter Bool.false_ne_true
  | cons c middle =>
    rw [hsplit]
    refine ⟨_, _, .mk [] (c :: middle) last (fun _ h => absurd h List.not_mem_nil) (Nat.zero_le _)
      hmiddle hlast ?_ ?_⟩
    · rw [csiFields_of_middle]
      simpa using hfields
    · simpa using hinters

theorem entry_parts {body : List UInt8} {final : UInt8} (hbody : ∀ b ∈ body, isBody b)
    (hfinal : isFinal final) :
    (∃ params intermediates, CsiGrammar body params intermediates) ∨
      Dropped ((inCsi .csiEntry [] 0 [] false).feed (body ++ [final])) := by
  have hnone : ∀ b ∈ ([] : List UInt8), isMarker b := fun _ h => absurd h List.not_mem_nil
  cases body with
  | nil =>
    exact .inl ⟨_, _, .mk [] [] [] hnone (Nat.zero_le _) (fun _ h => absurd h List.not_mem_nil)
      (fun _ h => absurd h List.not_mem_nil) (Nat.zero_le _) (Nat.zero_le _)⟩
  | cons b body =>
    have hbehind : ∀ c ∈ body, isBody c := fun c hc => hbody c (List.mem_cons_of_mem _ hc)
    rcases body_class b (hbody b List.mem_cons_self) with hb | hb | hb | hb | hb
    · have hparts := intermediate_parts [] 0 [b] hbehind hfinal (Nat.le_succ 1)
      rw [List.cons_append, feed_step rfl rfl (entry_inter hb)]
      refine hparts.imp_left ?_
      rintro ⟨hlast, hsum⟩
      refine ⟨_, _, .mk [] [] (b :: body) hnone (Nat.zero_le _) (fun _ h => absurd h List.not_mem_nil)
        (List.forall_mem_cons.mpr ⟨hb, hlast⟩) (Nat.zero_le _) ?_⟩
      simpa [Nat.add_comm] using hsum
    · exact param_start (.inl hb) hbody hfinal
    · exact param_start (.inr (.inl hb)) hbody hfinal
    · have hparts := param_parts [] [b] [] hbehind hfinal (Nat.le_succ 1)
      rw [List.cons_append, feed_step rfl rfl (entry_marker hb)]
      refine hparts.imp_left ?_
      rintro ⟨middle, last, rfl, hmiddle, hlast, hfields, hinters⟩
      refine ⟨_, _, .mk [b] middle last (List.forall_mem_singleton.mpr hb) (Nat.le_refl _) hmiddle hlast
        ?_ ?_⟩
      · rw [csiFields_of_marker]
        simpa using hfields
      · simpa [Nat.add_comm] using hinters
    · exact param_start (.inr (.inr hb)) hbody hfinal

theorem opened (rest : List UInt8) :
    Parser.new.feed (0x1b :: 0x5b :: rest) = (inCsi .csiEntry [] 0 [] false).feed rest := by
  have hesc : Parser.new.step 0x1b = ({ Parser.new with state := .escape }, []) := by decide
  have hopen : ({ Parser.new with state := .escape } : Parser).step 0x5b =
      (inCsi .csiEntry [] 0 [] false, []) := by decide
  rw [feed_step rfl rfl hesc, feed_step rfl rfl hopen]

/-- From an idle parser exactly the sequences of the grammar are acted on, with the
parameters it gives them; no other changes the screen. -/
theorem csi_grammar (p : Parser) (hp : Fed p) (hidle : p.isIdle) (body : List UInt8)
    (hbody : ∀ b ∈ body, isBody b) (final : UInt8) (hfinal : isFinal final) :
    (∀ params intermediates, CsiGrammar body params intermediates →
      (p.feed (0x1b :: 0x5b :: body ++ [final])).2 =
        [.csi params intermediates false (charFrom final)]) ∧
    ((∀ params intermediates, ¬ CsiGrammar body params intermediates) →
      (∀ params intermediates action,
        .csi params intermediates false action ∉ (p.feed (0x1b :: 0x5b :: body ++ [final])).2) ∧
      ∀ s : Screen, (p.feed (0x1b :: 0x5b :: body ++ [final])).2.foldl Screen.act s = s) ∧
    (p.feed (0x1b :: 0x5b :: body ++ [final])).1.isIdle := by
  obtain ⟨hacts, halike⟩ := (alike_new hidle hp.utf8Ok).feed (0x1b :: 0x5b :: body ++ [final])
  rw [List.cons_append, List.cons_append, opened] at hacts halike
  rw [List.cons_append, List.cons_append, hacts]
  refine ⟨fun params intermediates h => ?_, fun hnone => ?_, isIdle_of_alike halike ?_⟩
  · rw [feed_grammar h hfinal]
    rfl
  · obtain ⟨params, intermediates, h⟩ | hdropped := entry_parts hbody hfinal
    · exact absurd h (hnone params intermediates)
    · obtain ⟨-, hcalls | ⟨params, intermediates, action, hcalls⟩⟩ := hdropped
      · rw [hcalls]
        exact ⟨fun _ _ _ => List.not_mem_nil, fun _ => rfl⟩
      · rw [hcalls]
        refine ⟨fun _ _ _ h => ?_, fun _ => rfl⟩
        have hsame := List.mem_singleton.mp h
        injection hsame with _ _ hignore
        exact Bool.false_ne_true hignore
  · obtain ⟨params, intermediates, h⟩ | hdropped := entry_parts hbody hfinal
    · rw [feed_grammar h hfinal]
      rfl
    · rw [hdropped.1]
      rfl

/-- A marker, two parameters of which one is empty, and an intermediate. -/
theorem csi_grammar_private :
    (Parser.new.feed [0x1b, 0x5b, 0x3f, 0x3b, 0x37, 0x24, 0x70]).2 =
      [.csi [0, 7] [0x3f, 0x24] false 'p'] := by
  have hbody : ∀ b ∈ [0x3f, 0x3b, 0x37, 0x24], isBody b :=
    List.forall_mem_cons.mpr ⟨rfl, List.forall_mem_cons.mpr ⟨rfl,
      List.forall_mem_cons.mpr ⟨rfl, List.forall_mem_singleton.mpr rfl⟩⟩⟩
  have hmiddle : ∀ b ∈ [0x3b, 0x37], isDigit b ∨ isSeparator b :=
    List.forall_mem_cons.mpr ⟨.inr rfl, List.forall_mem_singleton.mpr (.inl rfl)⟩
  have h := csi_grammar .new ⟨[], rfl⟩ rfl [0x3f, 0x3b, 0x37, 0x24] hbody 0x70 rfl
  exact h.1 _ _ (.mk [0x3f] [0x3b, 0x37] [0x24] (List.forall_mem_singleton.mpr rfl) (Nat.le_refl _)
    hmiddle (List.forall_mem_singleton.mpr rfl) (Nat.le_of_ble_eq_true rfl) (Nat.le_refl _))

end Parser

end Rill.Vt
