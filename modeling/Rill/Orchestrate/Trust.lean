import Mathlib.Data.List.DropRight
import Mathlib.Data.List.Infix
import Rill.Lib.Mask
import Rill.Orchestrate.Task

/-!
# Redaction

What is known as a secret is masked before text is persisted or attached: what
follows the first `=` of a line whose key tells, and the words that begin with
a known prefix.
-/

namespace Rill.Orchestrate

open Lib

def isWhitespace (c : Char) : Bool :=
  let n := c.toNat
  9 ≤ n && n ≤ 13 || n = 0x20 || n = 0x85 || n = 0xa0 || n = 0x1680 || 0x2000 ≤ n && n ≤ 0x200a ||
    n = 0x2028 || n = 0x2029 || n = 0x202f || n = 0x205f || n = 0x3000

def trim (text : List Char) : List Char := (text.dropWhile isWhitespace).rdropWhile isWhitespace

/-- Only ASCII is looked for in what this gives, so a character whose uppercase
has none of it stands for itself. -/
def toUppercase (c : Char) : List Char :=
  match c with
  | 'ı' => ['I']
  | 'ſ' => ['S']
  | 'ß' => ['S', 'S']
  | 'ŉ' => ['ʼ', 'N']
  | 'ǰ' => ['J', '\u030c']
  | 'ẖ' => ['H', '\u0331']
  | 'ẗ' => ['T', '\u0308']
  | 'ẘ' => ['W', '\u030a']
  | 'ẙ' => ['Y', '\u030a']
  | 'ẚ' => ['A', 'ʾ']
  | 'ﬀ' => ['F', 'F']
  | 'ﬁ' => ['F', 'I']
  | 'ﬂ' => ['F', 'L']
  | 'ﬃ' => ['F', 'F', 'I']
  | 'ﬄ' => ['F', 'F', 'L']
  | 'ﬅ' | 'ﬆ' => ['S', 'T']
  | c => [c.toUpper]

def secretKeyHints : List (List Char) :=
  ["SECRET".toList, "TOKEN".toList, "PASSWORD".toList, "PASSWD".toList, "API_KEY".toList,
    "APIKEY".toList, "PRIVATE_KEY".toList]

def secretValuePrefixes : List (List Char) :=
  ["sk-".toList, "ghp_".toList, "gho_".toList, "AKIA".toList, "xoxb-".toList, "xoxp-".toList,
    "xoxa-".toList]

def mark : List Char := "[REDACTED]".toList

/-- A key that tells of a secret. -/
def isHinted (key : List Char) : Bool :=
  secretKeyHints.any fun hint => occurs hint (key.flatMap toUppercase)

/-- What stands before the first `=`, where that is the key of a secret. -/
def secretKey? (line : List Char) : Option (List Char) :=
  if '=' ∈ line then
    let key := line.takeWhile (· != '=')
    if isHinted (trim key) then some key else none
  else none

def newlineOf (line : List Char) : List Char := if line.getLast? = some '\n' then ['\n'] else []

def redactValues (line : List Char) : List Char := maskAll isWhitespace mark secretValuePrefixes line

def redactLine (line : List Char) : List Char :=
  match secretKey? line with
  | some key => key ++ '=' :: mark ++ newlineOf line
  | none => redactValues line

/-- Each line with the newline that ends it. -/
def splitInclusive (text : List Char) : List (List Char) := text.splitBy fun c _ => c != '\n'

def redact (text : String) : String :=
  String.ofList ((splitInclusive text.toList).flatMap redactLine)

inductive AttachError
  | emptyScope
  deriving DecidableEq, Repr

structure ContextAttachment where
  scope : String
  content : String
  deriving DecidableEq, Repr

def attachContext (scope rawContent : String) : Except AttachError ContextAttachment :=
  if (trim scope.toList).isEmpty then .error .emptyScope
  else .ok { scope, content := redact rawContent }

-- ---------------------------------------------------------------------------
-- What redaction is for
-- ---------------------------------------------------------------------------

/-- `line` is `before`, an `=`, a value up to the end of the line, and the newline if any. -/
structure Assignment (line : List Char) where
  before : List Char
  value : List Char
  newline : List Char
  whole : line = before ++ '=' :: (value ++ newline)
  inLine : '\n' ∉ value
  ends : newline = [] ∨ newline = ['\n']

/-- The last word in front of the `=`. -/
def Assignment.key {line : List Char} (a : Assignment line) : List Char :=
  (a.before.rdropWhile isWhitespace).rtakeWhile fun c => !isWhitespace c && c != '='

/-- Lines that are one but for the value of a key with a hint. -/
def SameButValue (line line' : List Char) : Prop :=
  line = line' ∨ ∃ (a : Assignment line) (a' : Assignment line'),
    isHinted a.key = true ∧ a'.before = a.before ∧ a'.newline = a.newline

def SameButValues (text text' : String) : Prop :=
  List.Forall₂ SameButValue (splitInclusive text.toList) (splitInclusive text'.toList)

/-- A part of a word begins with a prefix of secrets. -/
def Exposes (out : List Char) : Prop :=
  ∃ part, part <:+: out ∧ (∀ c ∈ part, isWhitespace c = false) ∧
    ∃ p ∈ secretValuePrefixes, p <+: part

structure Redacted (text : String) : Prop where
  masked : ¬ Exposes (redact text).toList
  hidden : ∀ text', SameButValues text text' → redact text' = redact text

/-- Where the line has a key that tells, no prefix of secrets is in it; else no
key on the line tells, and the words leave the prefixes for each other. -/
def Covered (line : List Char) : Prop :=
  match secretKey? line with
  | some key => ∀ p ∈ secretValuePrefixes, ¬ p <:+: key
  | none => (∀ a : Assignment line, isHinted a.key = false) ∧
      Covers secretValuePrefixes secretValuePrefixes (words isWhitespace line)

-- ---------------------------------------------------------------------------
-- The constants
-- ---------------------------------------------------------------------------

def isSolid (text : List Char) : Bool := text.all fun c => !isWhitespace c

theorem isSolid_iff (text : List Char) : isSolid text = true ↔ ∀ c ∈ text, isWhitespace c = false := by
  simp [isSolid]

theorem mark_inWord : ∀ c ∈ mark, isWhitespace c = false := (isSolid_iff mark).mp rfl

theorem maskable_of_mem {p : List Char} (hp : p ∈ secretValuePrefixes) :
    Maskable isWhitespace mark p := by
  have hall : ∀ p ∈ secretValuePrefixes,
      p ≠ [] ∧ isSolid p = true ∧ '[' ∉ p ∧ occurs p mark = false := by decide
  obtain ⟨hne, hin, hapart, hmark⟩ := hall p hp
  refine ⟨hne, (isSolid_iff p).mp hin, ?_, fun h => ?_⟩
  · rintro _ ⟨rfl⟩
    exact hapart
  · rw [← occurs_iff, hmark] at h
    cases h

theorem exposes_iff (out : List Char) : Exposes out ↔ ∃ p ∈ secretValuePrefixes, p <:+: out := by
  constructor
  · rintro ⟨part, hpart, -, p, hp, hprefix⟩
    exact ⟨p, hp, hprefix.isInfix.trans hpart⟩
  · rintro ⟨p, hp, hocc⟩
    exact ⟨p, hocc, (maskable_of_mem hp).inWord, p, hp, List.prefix_refl p⟩

theorem covers_words_iff (line : List Char) :
    Covers secretValuePrefixes secretValuePrefixes (words isWhitespace line) ↔
      ∀ p ∈ secretValuePrefixes, ¬ p <:+: redactValues line :=
  covers_iff mark_inWord (fun _ hp => maskable_of_mem hp) (fun _ hp => maskable_of_mem hp) line

-- ---------------------------------------------------------------------------
-- One line
-- ---------------------------------------------------------------------------

/-- What follows an `=` does not change the key of the line. -/
theorem secretKey?_append_eq (before x y : List Char) :
    secretKey? (before ++ '=' :: x) = secretKey? (before ++ '=' :: y) := by
  have hkey : ∀ z : List Char,
      (before ++ '=' :: z).takeWhile (· != '=') = before.takeWhile (· != '=') := by
    intro z
    induction before with
    | nil => rfl
    | cons c before ih => rw [List.cons_append, List.takeWhile_cons, List.takeWhile_cons, ih]
  have hmem : ∀ z : List Char, '=' ∈ before ++ '=' :: z := fun z =>
    List.mem_append_right before List.mem_cons_self
  simp only [secretKey?, hmem, if_true, hkey]

namespace Assignment

variable {line line' : List Char}

theorem newlineOf_eq (a : Assignment line) : newlineOf line = a.newline := by
  obtain ⟨before, value, newline, rfl, hvalue, rfl | rfl⟩ := a
  · have hlast : (before ++ '=' :: (value ++ [])).getLast? ≠ some '\n' := by
      rw [List.append_nil, List.getLast?_append_of_ne_nil _ (List.cons_ne_nil _ _)]
      intro h
      obtain heq | hmem := List.mem_cons.mp (List.mem_of_getLast? h)
      · cases heq
      · exact hvalue hmem
    exact if_neg hlast
  · have hlast : (before ++ '=' :: (value ++ ['\n'])).getLast? = some '\n' := by
      rw [← List.cons_append, ← List.append_assoc, List.getLast?_concat]
    exact if_pos hlast

theorem secretKey?_eq (a : Assignment line) (a' : Assignment line') (h : a'.before = a.before) :
    secretKey? line' = secretKey? line := by
  rw [a.whole, a'.whole, h]
  exact secretKey?_append_eq _ _ _

def withValue (a : Assignment line) (value : List Char) : List Char :=
  a.before ++ '=' :: (value ++ a.newline)

def assign (a : Assignment line) {value : List Char} (h : '\n' ∉ value) :
    Assignment (a.withValue value) :=
  ⟨a.before, value, a.newline, rfl, h, a.ends⟩

/-- Without a key that tells, a blank after the `=` reaches the output. -/
theorem redactLine_withValue_ne (a : Assignment line) (hkey : secretKey? line = none) :
    redactLine (a.withValue []) ≠ redactLine (a.withValue [' ']) := by
  have hline : ∀ value, '\n' ∉ value → (∀ c ∈ value ++ a.newline, isWhitespace c = true) →
      redactLine (a.withValue value) = redactValues (a.before ++ ['=']) ++ (value ++ a.newline) := by
    intro value hvalue hstops
    have hnone : secretKey? (a.withValue value) = none := by
      rw [← hkey]
      exact a.secretKey?_eq (a.assign hvalue) rfl
    rw [redactLine, hnone, withValue, List.append_cons]
    exact maskAll_append_stops (fun _ hp => maskable_of_mem hp) hstops _
  have hnewline : ∀ c ∈ a.newline, isWhitespace c = true := by
    obtain h | h := a.ends
    · rw [h]
      nofun
    · rw [h]
      exact List.forall_mem_singleton.mpr rfl
  rw [hline [] nofun hnewline, hline [' '] (by decide) (List.forall_mem_cons.mpr ⟨rfl, hnewline⟩)]
  intro h
  have hlength := congrArg List.length (List.append_cancel_left h)
  simp at hlength

end Assignment

theorem redactLine_same {line line' : List Char} (hcovered : Covered line)
    (h : SameButValue line line') : redactLine line' = redactLine line := by
  obtain rfl | ⟨a, a', hhinted, hbefore, hnewline⟩ := h
  · rfl
  · have hkey := a.secretKey?_eq a' hbefore
    cases hsecret : secretKey? line with
    | some key =>
      rw [redactLine, redactLine, hkey, hsecret, a.newlineOf_eq, a'.newlineOf_eq, hnewline]
    | none =>
      rw [Covered, hsecret] at hcovered
      rw [hcovered.1 a] at hhinted
      cases hhinted

/-- No prefix of secrets is left in a line exactly where none is in its key, or
where the words leave the prefixes for each other. -/
theorem redactLine_masks_iff (line : List Char) :
    (∀ p ∈ secretValuePrefixes, ¬ p <:+: redactLine line) ↔
      match secretKey? line with
      | some key => ∀ p ∈ secretValuePrefixes, ¬ p <:+: key
      | none => Covers secretValuePrefixes secretValuePrefixes (words isWhitespace line) := by
  rw [redactLine]
  cases secretKey? line with
  | none => exact (covers_words_iff line).symm
  | some key =>
    refine forall₂_congr fun p hp => not_congr ?_
    have htail : ∀ p ∈ secretValuePrefixes, '=' ∉ p ∧ occurs p ('=' :: mark) = false ∧
        occurs p ('=' :: mark ++ ['\n']) = false := by decide
    obtain ⟨hapart, hplain, hended⟩ := htail p hp
    have hnot : ¬ p <:+: '=' :: mark ++ newlineOf line := by
      rw [← occurs_iff, newlineOf]
      split
      case isTrue => exact Bool.eq_false_iff.mp hended
      case isFalse => exact Bool.eq_false_iff.mp hplain
    have hsplit : Apart p ('=' :: mark ++ newlineOf line) := by
      rintro _ ⟨rfl⟩
      exact hapart
    change p <:+: key ++ '=' :: mark ++ newlineOf line ↔ p <:+: key
    rw [List.append_assoc, infix_append_apart hsplit, or_iff_left hnot]

theorem covered_iff (line : List Char) : Covered line ↔
    (secretKey? line = none → ∀ a : Assignment line, isHinted a.key = false) ∧
      ∀ p ∈ secretValuePrefixes, ¬ p <:+: redactLine line := by
  rw [redactLine_masks_iff, Covered]
  cases secretKey? line with
  | some key => exact (and_iff_right nofun).symm
  | none => exact and_congr_left' (imp_iff_right rfl).symm

theorem redactLine_ends {line : List Char} (h : line.getLast? = some '\n') :
    ∃ front, redactLine line = front ++ ['\n'] := by
  rw [redactLine]
  cases secretKey? line with
  | some key => exact ⟨_, by rw [newlineOf, if_pos h]⟩
  | none =>
    obtain ⟨body, rfl⟩ := List.getLast?_eq_some_iff.mp h
    exact ⟨_, maskAll_append_stops (fun _ hp => maskable_of_mem hp)
      (List.forall_mem_singleton.mpr rfl) body⟩

-- ---------------------------------------------------------------------------
-- Many lines
-- ---------------------------------------------------------------------------

/-- A line that another follows ends. -/
def Follows (a b : List Char) : Prop :=
  ∃ (ha : a ≠ []) (_ : b ≠ []), (a.getLast ha != '\n') = false

theorem Follows.getLast? {a b : List Char} (h : Follows a b) : a.getLast? = some '\n' := by
  obtain ⟨ha, -, hlast⟩ := h
  rw [List.getLast?_eq_some_getLast ha]
  simpa using hlast

theorem isChain_splitInclusive (text : List Char) : (splitInclusive text).IsChain Follows :=
  List.isChain_getLast_head_splitBy (fun c _ => c != '\n') text

/-- What has no newline in it is in the text where it is in a line. -/
theorem infix_redactLines_iff {p : List Char} (hne : p ≠ []) (hnewline : '\n' ∉ p)
    {lines : List (List Char)} (h : lines.IsChain Follows) :
    p <:+: lines.flatMap redactLine ↔ ∃ line ∈ lines, p <:+: redactLine line := by
  induction lines with
  | nil => simp [hne]
  | cons line lines ih =>
    rw [List.flatMap_cons]
    cases lines with
    | nil => simp
    | cons next lines =>
      obtain ⟨hfollows, hrest⟩ := List.isChain_cons_cons.mp h
      obtain ⟨front, hfront⟩ := redactLine_ends hfollows.getLast?
      have hline : p <:+: redactLine line ↔ p <:+: front := by
        rw [hfront, infix_append_cons hne hnewline, List.infix_nil, or_iff_left hne]
      rw [List.exists_mem_cons_iff, ← ih hrest, hline, hfront, List.append_assoc,
        List.singleton_append, infix_append_cons hne hnewline]

theorem masked_iff (text : String) : ¬ Exposes (redact text).toList ↔
    ∀ line ∈ splitInclusive text.toList, ∀ p ∈ secretValuePrefixes, ¬ p <:+: redactLine line := by
  have hocc : ∀ p ∈ secretValuePrefixes, (p <:+: (redact text).toList ↔
      ∃ line ∈ splitInclusive text.toList, p <:+: redactLine line) := by
    intro p hp
    have hmaskable := maskable_of_mem hp
    have hnewline : '\n' ∉ p := fun hmem => absurd (hmaskable.inWord _ hmem) (by decide)
    rw [redact, String.toList_ofList]
    exact infix_redactLines_iff hmaskable.nonempty hnewline (isChain_splitInclusive _)
  rw [exposes_iff]
  constructor
  · intro h line hline p hp hmem
    exact h ⟨p, hp, (hocc p hp).mpr ⟨line, hline, hmem⟩⟩
  · rintro h ⟨p, hp, hmem⟩
    obtain ⟨line, hline, hline'⟩ := (hocc p hp).mp hmem
    exact h line hline p hp hline'

-- ---------------------------------------------------------------------------
-- Other values
-- ---------------------------------------------------------------------------

theorem isChain_newline_iff (line : List Char) :
    (line.IsChain fun c _ => (c != '\n') = true) ↔ '\n' ∉ line.dropLast := by
  induction line with
  | nil => simp
  | cons c line ih =>
    cases line with
    | nil => simp
    | cons d line =>
      rw [List.isChain_cons_cons, ih, List.dropLast_cons_cons, List.mem_cons, not_or, bne_iff_ne,
        ne_comm]

theorem Assignment.newline_not_mem {line line' : List Char} (a : Assignment line)
    (a' : Assignment line') (h : a'.before = a.before) (hline : '\n' ∉ line.dropLast) :
    '\n' ∉ line'.dropLast := by
  have hbefore : '\n' ∉ a.before := by
    rw [a.whole, List.dropLast_append_of_ne_nil (List.cons_ne_nil _ _)] at hline
    exact fun hmem => hline (List.mem_append_left _ hmem)
  have hvalue : '\n' ∉ '=' :: a'.value := by
    rw [List.mem_cons, not_or]
    exact ⟨by decide, a'.inLine⟩
  rw [a'.whole, h, List.dropLast_append_of_ne_nil (List.cons_ne_nil _ _), List.mem_append, not_or]
  refine ⟨hbefore, fun hmem => ?_⟩
  obtain hnewline | hnewline := a'.ends
  · rw [hnewline, List.append_nil] at hmem
    exact hvalue (List.dropLast_subset _ hmem)
  · rw [hnewline, ← List.cons_append, List.dropLast_concat] at hmem
    exact hvalue hmem

namespace SameButValue

variable {line line' : List Char}

theorem newlineOf_eq (h : SameButValue line line') : newlineOf line' = newlineOf line := by
  obtain rfl | ⟨a, a', -, -, hnewline⟩ := h
  · rfl
  · rw [a.newlineOf_eq, a'.newlineOf_eq, hnewline]

theorem getLast?_eq (h : SameButValue line line') (hlast : line.getLast? = some '\n') :
    line'.getLast? = some '\n' := by
  have hsame := h.newlineOf_eq
  by_contra hnot
  rw [newlineOf, newlineOf, if_neg hnot, if_pos hlast] at hsame
  cases hsame

theorem ne_nil (h : SameButValue line line') (hne : line ≠ []) : line' ≠ [] := by
  obtain rfl | ⟨-, a', -⟩ := h
  · exact hne
  · rw [a'.whole]
    exact List.append_ne_nil_of_right_ne_nil _ (List.cons_ne_nil _ _)

theorem isChain (h : SameButValue line line') (hchain : line.IsChain fun c _ => (c != '\n') = true) :
    line'.IsChain fun c _ => (c != '\n') = true := by
  obtain rfl | ⟨a, a', -, hbefore, -⟩ := h
  · exact hchain
  · rw [isChain_newline_iff] at hchain ⊢
    exact a.newline_not_mem a' hbefore hchain

theorem follows {next next' : List Char} (h : SameButValue line line') (hnext : SameButValue next next')
    (hfollows : Follows line next) : Follows line' next' := by
  have hlast := h.getLast?_eq hfollows.getLast?
  obtain ⟨hne, hnext', -⟩ := hfollows
  refine ⟨h.ne_nil hne, hnext.ne_nil hnext', ?_⟩
  rw [List.getLast?_eq_some_getLast (h.ne_nil hne)] at hlast
  simpa using hlast

end SameButValue

theorem isChain_of_same {lines lines' : List (List Char)} (h : List.Forall₂ SameButValue lines lines')
    (hchain : lines.IsChain Follows) : lines'.IsChain Follows := by
  induction h with
  | nil => exact hchain
  | cons hline hlines ih =>
    cases hlines with
    | nil => exact .singleton _
    | cons hnext hlines =>
      obtain ⟨hfollows, hrest⟩ := List.isChain_cons_cons.mp hchain
      exact List.isChain_cons_cons.mpr ⟨hline.follows hnext hfollows, ih hrest⟩

theorem splitInclusive_flatten {text : List Char} {lines : List (List Char)}
    (h : List.Forall₂ SameButValue (splitInclusive text) lines) :
    splitInclusive lines.flatten = lines := by
  have hall : ∀ line' ∈ lines, ∃ line ∈ splitInclusive text, SameButValue line line' := by
    intro line' hline'
    obtain ⟨i, hi, rfl⟩ := List.mem_iff_getElem.mp hline'
    have hi' : i < (splitInclusive text).length := h.length_eq ▸ hi
    exact ⟨_, List.getElem_mem hi', (List.forall₂_iff_get.mp h).2 i hi' hi⟩
  refine List.splitBy_flatten (fun hnil => ?_) (fun line' hline' => ?_)
    (isChain_of_same h (isChain_splitInclusive text))
  · obtain ⟨line, hline, hsame⟩ := hall [] hnil
    exact hsame.ne_nil (List.ne_nil_of_mem_splitBy hline) rfl
  · obtain ⟨line, hline, hsame⟩ := hall line' hline'
    exact hsame.isChain (List.isChain_of_mem_splitBy hline)

theorem redactLines_same {lines lines' : List (List Char)} (h : List.Forall₂ SameButValue lines lines')
    (hcovered : ∀ line ∈ lines, Covered line) : lines'.flatMap redactLine = lines.flatMap redactLine := by
  induction h with
  | nil => rfl
  | cons hline hlines ih =>
    obtain ⟨hfirst, hrest⟩ := List.forall_mem_cons.mp hcovered
    rw [List.flatMap_cons, List.flatMap_cons, redactLine_same hfirst hline, ih hrest]

/-- Where no value reaches the output, a key of the text tells only on a line whose first does. -/
theorem not_hinted_of_hidden {text : String}
    (h : ∀ text', SameButValues text text' → redact text' = redact text) {line : List Char}
    (hline : line ∈ splitInclusive text.toList) (hkey : secretKey? line = none) (a : Assignment line) :
    isHinted a.key = false := by
  by_contra hhinted
  rw [Bool.not_eq_false] at hhinted
  obtain ⟨front, back, hsplit⟩ := List.append_of_mem hline
  have hvalue : ∀ value, '\n' ∉ value →
      (front ++ a.withValue value :: back).flatMap redactLine =
        (splitInclusive text.toList).flatMap redactLine := by
    intro value hinLine
    have hlines : List.Forall₂ SameButValue (splitInclusive text.toList)
        (front ++ a.withValue value :: back) := by
      rw [hsplit]
      refine List.rel_append (List.forall₂_same.mpr fun _ _ => .inl rfl) (.cons ?_
        (List.forall₂_same.mpr fun _ _ => .inl rfl))
      exact .inr ⟨a, a.assign hinLine, hhinted, rfl, rfl⟩
    have hsame := splitInclusive_flatten hlines
    have hredact := h (String.ofList (front ++ a.withValue value :: back).flatten)
      (by rwa [SameButValues, String.toList_ofList, hsame])
    rwa [redact, redact, String.toList_ofList, hsame, String.ofList_inj] at hredact
  have htwo := (hvalue [] nofun).trans (hvalue [' '] (by decide)).symm
  rw [List.flatMap_append, List.flatMap_append, List.flatMap_cons, List.flatMap_cons] at htwo
  exact a.redactLine_withValue_ne hkey (List.append_cancel_right (List.append_cancel_left htwo))

theorem attachContext_masked {scope rawContent : String} {context : ContextAttachment}
    (h : attachContext scope rawContent = .ok context)
    (hcovered : ∀ line ∈ splitInclusive rawContent.toList, Covered line) :
    ¬ Exposes context.content.toList := by
  rw [attachContext] at h
  split at h
  case isTrue => cases h
  case isFalse =>
    cases h
    exact (masked_iff rawContent).mpr fun line hline => ((covered_iff line).mp (hcovered line hline)).2

theorem redacted_iff (text : String) :
    Redacted text ↔ ∀ line ∈ splitInclusive text.toList, Covered line := by
  constructor
  · rintro h line hline
    exact (covered_iff line).mpr
      ⟨not_hinted_of_hidden h.hidden hline, (masked_iff text).mp h.masked line hline⟩
  · intro h
    refine ⟨(masked_iff text).mpr fun line hline => ((covered_iff line).mp (h line hline)).2,
      fun text' hsame => ?_⟩
    rw [redact, redact, redactLines_same hsame h]

/-- The second secret of a line passes, and so does the value of its second assignment. -/
theorem second_secret_passes :
    redact "sk-one sk-two" = "[REDACTED] sk-two" ∧ ¬ Redacted "sk-one sk-two" ∧
      redact "A=1 TOKEN=x" = "A=1 TOKEN=x" ∧ ¬ Redacted "A=1 TOKEN=x" := by
  refine ⟨by decide, fun h => ?_, by decide, fun h => ?_⟩
  · refine h.masked ((exposes_iff _).mpr ⟨"sk-".toList, by decide, occurs_iff.mp (by decide)⟩)
  · have hsame : SameButValues "A=1 TOKEN=x" "A=1 TOKEN=y" := by
      refine .cons (.inr ⟨⟨"A=1 TOKEN".toList, ['x'], [], by decide, by decide, .inl rfl⟩,
        ⟨"A=1 TOKEN".toList, ['y'], [], by decide, by decide, .inl rfl⟩, by decide, rfl, rfl⟩) .nil
    exact absurd (h.hidden _ hsame) (by decide)

end Rill.Orchestrate
