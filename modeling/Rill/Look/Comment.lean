import Rill.Look.Theme

/-!
# Comments behind settings

The mark of a comment is also the mark of a colour, and what is behind the first one decides
which it is. A comment is nothing to the look when it is not taken for a colour and the value
is none, or when the key has no use for the value, with the comment or without.
-/

namespace Rill.Look

open Lib Orchestrate

variable {F : Type}

def textOf (ls : List (List Char)) : List Char := ['\n'].intercalate ls

structure SettingLine (line : List Char) : Prop where
  equals : '=' ∈ line
  notComment : (trim line).head? ≠ some '#'
  noQuote : '"' ∉ line
  noNewline : '\n' ∉ line

def withComment (line comment : List Char) : List Char := line ++ " # ".toList ++ comment

/-- With the comment behind the line, any look text with it is read as it is without. -/
def Unchanged (fl : Floats F) (line comment : List Char) : Prop :=
  ∀ files turns directory before after, (∀ l ∈ before ++ after, '\n' ∉ l) →
    parseLookKeys fl files turns (textOf (before ++ withComment line comment :: after)) directory =
      parseLookKeys fl files turns (textOf (before ++ line :: after)) directory

def reads (fl : Floats F) (e : List Char × List Char) : Except Stop (Setting F) :=
  setting fl (keyOf e.1) e.2

/-- The key has no use for the one value or the other, or takes the same theme from both. Of a
padding only what is in front of the first blank is read. -/
def Overlooks (key : Key) (v v' : List Char) : Prop :=
  match key with
  | .fontFamily | .fontFamilyFallback => v = [] ∧ v' = []
  | .fontSize | .backgroundOpacity => isFloat v = false ∧ isFloat v' = false
  | .background | .foreground | .cursor | .splitDividerColor | .paletteSlot _ =>
    parseHex v = none ∧ parseHex v' = none
  | .palette => slotColour? v = none ∧ slotColour? v' = none
  | .macosOptionAsAlt => parseBool v = none ∧ parseBool v' = none
  | .theme => lightThemeName v = lightThemeName v'
  | .windowPaddingX | .windowPaddingY | .unknown => True

/-- The key overlooks what the two lines give it as its value. -/
def Overlooked (line line' : List Char) : Prop :=
  ∀ e e', entryOf (trim line) = some e → entryOf (trim line') = some e' → Overlooks (keyOf e.1) e.2 e'.2

/-- The comment is not taken for a colour, and nothing in the line was; or it makes no difference
to the key. -/
def Spared (line comment : List Char) : Prop :=
  match cut? [' ', '#'] (trim line) with
  | none => parseHex (trim comment) = none ∨ Overlooked line (withComment line comment)
  | some (front, back) => parseHex (trim (back.drop 2)) = none ∨ Overlooked front line

-- ---------------------------------------------------------------------------
-- Lines
-- ---------------------------------------------------------------------------

theorem entry_congr {raw raw' : List Char} (h : trim raw = trim raw') : entry raw = entry raw' := by
  rw [entry, entry, h]

theorem trim_concat {c : Char} (hc : isWhitespace c = true) (l : List Char) : trim (l ++ [c]) = trim l := by
  obtain h | ⟨x, d, y, hd, rfl⟩ := blank_or isWhitespace l
  · rw [trim_eq_strip, trim_eq_strip, strip_eq_nil h, strip_eq_nil]
    intro d hd
    rcases List.mem_append.mp hd with hd | hd
    · exact h d hd
    · rw [List.mem_singleton.mp hd]
      exact hc
  · rw [List.append_assoc, List.cons_append, trim_eq_strip, trim_eq_strip, strip_append_cons hd,
      strip_append_cons hd, List.rdropWhile_concat_pos _ _ _ hc]

theorem trim_stripNewline (l : List Char) : trim (stripNewline l) = trim l := by
  rw [stripNewline]
  split
  case isTrue hnewline =>
    have hl : trim l = trim l.dropLast := by
      conv_lhs => rw [← List.dropLast_append_getLast? '\n' hnewline]
      exact trim_concat rfl _
    split
    case isTrue hreturn =>
      rw [hl]
      conv_rhs => rw [← List.dropLast_append_getLast? '\r' hreturn]
      exact (trim_concat rfl _).symm
    case isFalse => exact hl.symm
  case isFalse => rfl

theorem splitInclusive_line {l : List Char} (hne : l ≠ []) (h : '\n' ∉ l.dropLast) :
    splitInclusive l = [l] :=
  List.splitBy_of_isChain hne ((isChain_newline_iff l).mpr h)

theorem splitInclusive_append {l : List Char} (h : '\n' ∉ l) (rest : List Char) :
    splitInclusive (l ++ '\n' :: rest) = (l ++ ['\n']) :: splitInclusive rest := by
  have hfirst : splitInclusive (l ++ ['\n']) = [l ++ ['\n']] :=
    splitInclusive_line (by simp) (by simpa using h)
  have hsplit : splitInclusive ((l ++ ['\n']) ++ rest) = splitInclusive (l ++ ['\n']) ++ splitInclusive rest :=
    List.splitBy_append (by simp)
  rw [← List.append_cons] at hsplit
  rw [hsplit, hfirst]
  rfl

theorem entries_textOf {ls : List (List Char)} (h : ∀ l ∈ ls, '\n' ∉ l) :
    entries (textOf ls) = ls.filterMap entry := by
  have hstrip : ∀ l, entry (stripNewline l) = entry l := fun l => entry_congr (trim_stripNewline l)
  induction ls with
  | nil => rfl
  | cons l ls ih =>
    obtain ⟨hl, hls⟩ := List.forall_mem_cons.mp h
    cases ls with
    | nil =>
      rw [textOf, List.intercalate_singleton]
      by_cases hne : l = []
      · subst hne
        rfl
      · have hlast : '\n' ∉ l.dropLast := fun hmem => hl (List.mem_of_mem_dropLast hmem)
        rw [entries, lines, splitInclusive_line hne hlast, List.map_singleton, List.filterMap_cons,
          List.filterMap_cons, hstrip]
    | cons l' ls =>
      have htext : textOf (l :: l' :: ls) = l ++ '\n' :: textOf (l' :: ls) := by
        rw [textOf, List.intercalate_cons_cons, List.append_assoc]
        rfl
      have hentry : entry (stripNewline (l ++ ['\n'])) = entry l := by
        rw [hstrip]
        exact entry_congr (trim_concat rfl l)
      rw [htext, entries, lines, splitInclusive_append hl, List.map_cons, List.filterMap_cons, hentry,
        List.filterMap_cons, ← ih hls]
      rfl

-- ---------------------------------------------------------------------------
-- What a text is read by
-- ---------------------------------------------------------------------------

theorem parseLookKeys_congr {fl : Floats F} {text text' : List Char}
    (h : (entries text).map (reads fl) = (entries text').map (reads fl)) (files : Files) (turns : Nat)
    (directory : Option Path) :
    parseLookKeys fl files turns text directory = parseLookKeys fl files turns text' directory := by
  have hscan : Scan.text fl text = Scan.text fl text' := by
    rw [scan_text_eq, scan_text_eq]
    have henter : ∀ es : List (List Char × List Char), ∀ st : Scan F,
        es.foldlM (Scan.enter fl) st = (es.map (reads fl)).foldlM (fun st r => return st.apply (← r)) st := by
      intro es st
      rw [List.foldlM_map]
      rfl
    rw [henter, henter, h]
  cases turns with
  | zero => rfl
  | succ turns => rw [parseLookKeys, parseLookKeys, hscan]

-- ---------------------------------------------------------------------------
-- Values with a mark in them
-- ---------------------------------------------------------------------------

section
variable {l : List Char}

theorem mem_dropSign {c : Char} (hplus : c ≠ '+') (hminus : c ≠ '-') (h : c ∈ l) : c ∈ dropSign l := by
  unfold dropSign
  split
  case h_1 => exact List.mem_of_ne_of_mem hplus h
  case h_2 => exact List.mem_of_ne_of_mem hminus h
  case h_3 => exact h

theorem isExponent_of_mark (h : '#' ∈ l) : isExponent l = false := by
  cases l with
  | nil => cases h
  | cons c l =>
    rcases List.mem_cons.mp h with rfl | h
    · rfl
    · have hdigits : (dropSign l).all Char.isDigit = false :=
        List.all_eq_false.mpr ⟨'#', mem_dropSign (by decide) (by decide) h, by decide⟩
      simp [isExponent, hdigits]

theorem isNumber_of_mark (h : '#' ∈ l) : isNumber l = false := by
  have hrest : '#' ∈ l.dropWhile Char.isDigit := mem_dropWhile_of_neg rfl h
  unfold isNumber
  dsimp only
  split
  case h_1 rest hpoint =>
    rw [hpoint] at hrest
    have hbehind : '#' ∈ rest := List.mem_of_ne_of_mem (by decide) hrest
    rw [isExponent_of_mark (mem_dropWhile_of_neg rfl hbehind), Bool.and_false]
  case h_2 => rw [isExponent_of_mark hrest, Bool.and_false]

theorem mem_map_toLower (h : '#' ∈ l) : '#' ∈ l.map Char.toLower := List.mem_map_of_mem (f := Char.toLower) h

theorem isFloat_of_mark (h : '#' ∈ l) : isFloat l = false := by
  have hrest : '#' ∈ dropSign l := mem_dropSign (by decide) (by decide) h
  have hnames : (["inf", "infinity", "nan"].any fun name =>
      (dropSign l).map Char.toLower = name.toList) = false := by
    rw [List.any_eq_false]
    intro name hmem heq
    have hfree : ∀ name ∈ ["inf", "infinity", "nan"], '#' ∉ name.toList := by decide
    rw [decide_eq_true_eq] at heq
    exact hfree name hmem (heq ▸ mem_map_toLower hrest)
  unfold isFloat
  dsimp only
  rw [isNumber_of_mark hrest, hnames]
  rfl

theorem parseBool_of_mark (h : '#' ∈ l) : parseBool l = none := by
  have hname : ∀ name : String, '#' ∉ name.toList → String.ofList (l.map Char.toLower) ≠ name := by
    rintro name hfree rfl
    rw [String.toList_ofList] at hfree
    exact hfree (mem_map_toLower h)
  unfold parseBool
  split <;> first | rfl | exact absurd ‹_› (hname _ (by decide))

end

section
variable {u : List Char}

theorem trim_marked_of_blank (h : ∀ c ∈ u, isWhitespace c = true) (rest : List Char) :
    trim (u ++ ' ' :: '#' :: rest) = '#' :: rest.rdropWhile isWhitespace := by
  have hassoc : u ++ ' ' :: '#' :: rest = (u ++ [' ']) ++ '#' :: rest := by simp
  have hblank : (u ++ [' ']).dropWhile isWhitespace = [] := by
    rw [List.dropWhile_eq_nil_iff]
    intro c hc
    rcases List.mem_append.mp hc with hc | hc
    · exact h c hc
    · rw [List.mem_singleton.mp hc]
      rfl
  rw [hassoc, trim_eq_strip, strip_append_cons rfl, hblank, List.nil_append]

theorem trim_marked_of_solid {c : Char} (hc : c ∈ u) (hsolid : isWhitespace c = false) (rest : List Char) :
    trim (u ++ ' ' :: '#' :: rest) =
      u.dropWhile isWhitespace ++ ' ' :: '#' :: rest.rdropWhile isWhitespace := by
  obtain ⟨x, y, rfl⟩ := List.append_of_mem hc
  have hassoc : x ++ c :: y ++ ' ' :: '#' :: rest = x ++ c :: (y ++ [' ']) ++ '#' :: rest := by simp
  rw [hassoc, trim_eq_strip, strip_append_cons rfl, dropWhile_append_cons hsolid, dropWhile_append_cons hsolid]
  simp

/-- A value with something behind a mark goes on behind a blank, or begins with the mark. -/
theorem trim_marked (u rest : List Char) :
    (trim u = [] ∧ ∃ r, trim (u ++ ' ' :: '#' :: rest) = '#' :: r) ∨
      ∃ d r, isWhitespace d = true ∧ trim (u ++ ' ' :: '#' :: rest) = trim u ++ d :: r := by
  by_cases h : ∀ c ∈ u, isWhitespace c = true
  · exact .inl ⟨strip_eq_nil h, _, trim_marked_of_blank h rest⟩
  · push Not at h
    obtain ⟨c, hc, hsolid⟩ := h
    have hmarked := trim_marked_of_solid hc (Bool.eq_false_iff.mpr hsolid) rest
    rw [← List.rdropWhile_append_rtakeWhile (p := isWhitespace) (l := u.dropWhile isWhitespace),
      List.append_assoc] at hmarked
    cases hgap : (u.dropWhile isWhitespace).rtakeWhile isWhitespace with
    | nil =>
      rw [hgap] at hmarked
      exact .inr ⟨' ', _, rfl, hmarked⟩
    | cons d gap =>
      have hd : d ∈ (u.dropWhile isWhitespace).rtakeWhile isWhitespace := by
        rw [hgap]
        exact List.mem_cons_self
      rw [hgap] at hmarked
      exact .inr ⟨d, _, List.mem_rtakeWhile_imp hd, hmarked⟩

theorem trim_marked_ne_nil (u rest : List Char) : trim (u ++ ' ' :: '#' :: rest) ≠ [] := by
  obtain ⟨-, r, h⟩ | ⟨d, r, -, h⟩ := trim_marked u rest <;> rw [h] <;> simp

theorem trim_marked_ne (u rest : List Char) : trim (u ++ ' ' :: '#' :: rest) ≠ trim u := by
  obtain ⟨hu, r, h⟩ | ⟨d, r, -, h⟩ := trim_marked u rest
  · rw [h, hu]
    simp
  · rw [h]
    simp

theorem mark_mem (u rest : List Char) : '#' ∈ trim (u ++ ' ' :: '#' :: rest) :=
  mem_strip_of_neg rfl (by simp)

theorem firstNumber_marked (fl : Floats F) (u rest : List Char) :
    firstNumber fl (trim u) = firstNumber fl (trim (u ++ ' ' :: '#' :: rest)) := by
  obtain ⟨hu, r, h⟩ | ⟨d, r, hd, h⟩ := trim_marked u rest
  · have hmark : isFloat ('#' :: r.takeWhile fun c => !(c = ',' || isWhitespace c)) = false :=
      isFloat_of_mark List.mem_cons_self
    rw [hu, h, firstNumber, firstNumber, List.takeWhile_cons_of_pos (by rfl), Floats.parse, Floats.parse, hmark]
    rfl
  · have hstop : (!(d = ',' || isWhitespace d)) = false := by simp [hd]
    have htoken : (trim u ++ d :: r).takeWhile (fun c => !(c = ',' || isWhitespace c)) =
        (trim u).takeWhile fun c => !(c = ',' || isWhitespace c) := by
      rw [List.takeWhile_append]
      split
      case isTrue hall =>
        rw [List.takeWhile_cons_of_neg (by rw [hstop]; exact Bool.false_ne_true), List.append_nil]
        exact ((List.takeWhile_prefix _).eq_of_length hall).symm
      case isFalse => rfl
    rw [h, firstNumber, firstNumber, htoken]

end

-- ---------------------------------------------------------------------------
-- Colours
-- ---------------------------------------------------------------------------

theorem parseHex_eq_none {c : Char} {l : List Char} (hmark : c ≠ '#') (hhex : isHexDigit c = false)
    (h : c ∈ trim l) : parseHex l = none := by
  have hmem : c ∈ (trim l).dropWhile fun c => c = '#' := mem_dropWhile_of_neg (decide_eq_false hmark) h
  have hall : ((trim l).dropWhile fun c => c = '#').all isHexDigit = false := by
    rw [Bool.eq_false_iff]
    intro hall
    rw [List.all_eq_true.mp hall c hmem] at hhex
    cases hhex
  rw [parseHex]
  simp only [hall, Bool.not_false, if_true]

/-- A mark behind something on the line, with a blank in front, is in no colour. -/
theorem parseHex_marked {u : List Char} (hu : ∃ c ∈ u, isWhitespace c = false) (rest : List Char) :
    parseHex (trim (u ++ ' ' :: '#' :: rest)) = none := by
  obtain ⟨c, hc, hsolid⟩ := hu
  refine parseHex_eq_none (c := ' ') (by decide) (by decide) ?_
  rw [trim_trim, trim_marked_of_solid hc hsolid]
  simp

/-- What is behind the first mark is no colour when there is a second. -/
theorem parseHex_comment (u comment : List Char) :
    parseHex (trim (u ++ ' ' :: '#' :: (' ' :: comment).rdropWhile isWhitespace)) = none := by
  obtain h | ⟨x, c, y, hc, rfl⟩ := blank_or isWhitespace u
  · rw [trim_marked_of_blank h, List.rdropWhile_idempotent]
    obtain hall | ⟨x, c, y, hc, hcomment⟩ := blank_or isWhitespace comment
    · have hempty : (' ' :: comment).rdropWhile isWhitespace = [] := by
        rw [List.rdropWhile_eq_nil_iff]
        exact List.forall_mem_cons.mpr ⟨rfl, hall⟩
      rw [hempty]
      rfl
    · have hkept : (' ' :: comment).rdropWhile isWhitespace = ' ' :: (x ++ c :: y.rdropWhile isWhitespace) := by
        rw [hcomment, ← List.cons_append, rdropWhile_append_cons hc]
        rfl
      refine parseHex_eq_none (c := ' ') (by decide) (by decide) ?_
      rw [hkept, trim_hash_cons, ← List.cons_append, rdropWhile_append_cons hc]
      simp
  · exact parseHex_marked ⟨c, List.mem_append_right x List.mem_cons_self, hc⟩ _

-- ---------------------------------------------------------------------------
-- The line with the comment
-- ---------------------------------------------------------------------------

section
variable {line comment : List Char}

theorem trim_dropWhile (l : List Char) : trim (l.dropWhile isWhitespace) = trim l := by
  rw [trim, trim, List.dropWhile_idempotent]

theorem trim_rdropWhile (l : List Char) : trim (l.rdropWhile isWhitespace) = trim l := by
  obtain h | ⟨x, c, y, hc, rfl⟩ := blank_or isWhitespace l
  · rw [List.rdropWhile_eq_nil_iff.mpr h, trim_eq_strip l, strip_eq_nil h]
    rfl
  · rw [rdropWhile_append_cons hc, trim_eq_strip, trim_eq_strip, strip_append_cons hc, strip_append_cons hc,
      List.rdropWhile_idempotent]

theorem trim_withComment (h : SettingLine line) (comment : List Char) :
    trim (withComment line comment) =
      line.dropWhile isWhitespace ++ ' ' :: '#' :: (' ' :: comment).rdropWhile isWhitespace := by
  rw [withComment, List.append_assoc]
  exact trim_marked_of_solid h.equals rfl (' ' :: comment)

theorem entry_eq {raw : List Char} (hne : trim raw ≠ []) (hmark : (trim raw).head? ≠ some '#') :
    entry raw = entryOf (uncommented (trim raw)) := by
  have hempty : (trim raw).isEmpty = false := by simpa using hne
  simp [entry, hempty, hmark]

theorem trim_ne_nil {l : List Char} (h : '=' ∈ l) : trim l ≠ [] := by
  have hmem : '=' ∈ trim l := mem_strip_of_neg rfl h
  exact List.ne_nil_of_mem hmem

theorem head?_dropWhile (h : SettingLine line) :
    (line.dropWhile isWhitespace).head? = (trim line).head? := by
  obtain ⟨x, y, hline⟩ := List.append_of_mem h.equals
  have hequals : isWhitespace '=' = false := rfl
  rw [hline, dropWhile_append_cons hequals, trim_eq_strip, strip_append_cons hequals]
  cases x.dropWhile isWhitespace <;> rfl

theorem entry_line (h : SettingLine line) : entry line = entryOf (uncommented (trim line)) :=
  entry_eq (trim_ne_nil h.equals) h.notComment

theorem entry_withComment (h : SettingLine line) (comment : List Char) :
    entry (withComment line comment) = entryOf (uncommented (trim (withComment line comment))) := by
  have hmem : '=' ∈ withComment line comment := by
    rw [withComment, List.append_assoc]
    exact List.mem_append_left _ h.equals
  refine entry_eq (trim_ne_nil hmem) ?_
  have hmark := h.notComment
  rw [← head?_dropWhile h] at hmark
  rw [trim_withComment h]
  have hdrop : '=' ∈ line.dropWhile isWhitespace := by
    obtain ⟨x, y, hline⟩ := List.append_of_mem h.equals
    rw [hline, dropWhile_append_cons rfl]
    exact List.mem_append_right _ List.mem_cons_self
  cases hS : line.dropWhile isWhitespace with
  | nil => rw [hS] at hdrop; cases hdrop
  | cons c S =>
    rw [hS] at hmark
    exact hmark

theorem uncommented_of_unmarked (h : SettingLine line) (hcut : cut? [' ', '#'] (trim line) = none)
    (comment : List Char) :
    uncommented (trim (withComment line comment)) =
      if parseHex (trim comment) = none then trim line else trim (withComment line comment) := by
  have hfree : ¬ [' ', '#'] <:+: line.dropWhile isWhitespace := by
    rintro ⟨x, y, hxy⟩
    have htrim : trim line = x ++ [' '] ++ '#' :: y.rdropWhile isWhitespace := by
      have hassoc : x ++ [' ', '#'] ++ y = (x ++ [' ']) ++ '#' :: y := by simp
      rw [trim, ← hxy, hassoc, rdropWhile_append_cons rfl]
    exact cut?_eq_none.mp hcut ⟨x, y.rdropWhile isWhitespace, by rw [htrim]; simp⟩
  have hmark := cut?_append_pair (by decide) hfree ((' ' :: comment).rdropWhile isWhitespace)
  rw [← trim_withComment h] at hmark
  have hrest : trim ((' ' :: '#' :: (' ' :: comment).rdropWhile isWhitespace).drop 2) = trim comment := by
    rw [show (' ' :: '#' :: (' ' :: comment).rdropWhile isWhitespace).drop 2 =
      (' ' :: comment).rdropWhile isWhitespace from rfl, trim_rdropWhile]
    rfl
  rw [uncommented, hmark]
  simp only [hrest, trim_dropWhile, Option.isNone_iff_eq_none]

/-- Where the line had a mark the comment adds another, and what is behind the first is cut. -/
theorem uncommented_of_marked (h : SettingLine line) {front back : List Char}
    (hcut : cut? [' ', '#'] (trim line) = some (front, back)) (comment : List Char) :
    uncommented (trim (withComment line comment)) = trim front := by
  obtain ⟨hline, rest, rfl⟩ := of_cut? hcut
  obtain ⟨tail, htail⟩ : trim line <+: line.dropWhile isWhitespace := List.rdropWhile_prefix _ _
  have hmark := cut?_append hcut (tail ++ ' ' :: '#' :: (' ' :: comment).rdropWhile isWhitespace)
  rw [← List.append_assoc, htail, ← trim_withComment h] at hmark
  have hnone := parseHex_comment (rest ++ tail) comment
  rw [List.append_assoc] at hnone
  have hdrop : ([' ', '#'] ++ rest ++ (tail ++ ' ' :: '#' :: (' ' :: comment).rdropWhile isWhitespace)).drop 2 =
      rest ++ (tail ++ ' ' :: '#' :: (' ' :: comment).rdropWhile isWhitespace) := rfl
  rw [uncommented, hmark]
  simp only [hdrop, hnone, Option.isNone_none, if_true]

-- ---------------------------------------------------------------------------
-- The two values
-- ---------------------------------------------------------------------------

theorem entryOf_trim {k : List Char} (hk : '=' ∉ k) (r : List Char) :
    entryOf (trim (k ++ '=' :: r)) = some ((trim k).map Char.toLower, unquoted (trim r)) := by
  have hdrop : '=' ∉ k.dropWhile isWhitespace := fun hmem => hk (List.dropWhile_sublist _ |>.subset hmem)
  rw [trim_eq_strip, strip_append_cons rfl, entryOf, cut?_append_singleton hdrop, Option.map_some,
    trim_dropWhile, List.drop_succ_cons, List.drop_zero, trim_rdropWhile]

theorem unquoted_of_head {v : List Char} (h : v.head? ≠ some '"') : unquoted v = v := by
  simp [unquoted, h]

structure Tailed (e e' : List Char × List Char) : Prop where
  key : e.1 = e'.1
  value : ∃ u rest, e.2 = trim u ∧ e'.2 = trim (u ++ ' ' :: '#' :: rest)

theorem head?_trim_ne {u : List Char} (h : '"' ∉ u) : (trim u).head? ≠ some '"' := by
  intro hhead
  have hmem : '"' ∈ trim u := List.mem_of_mem_head? hhead
  exact h (mem_of_mem_strip hmem)

theorem head?_trim_marked_ne {u : List Char} (h : '"' ∉ u) (rest : List Char) :
    (trim (u ++ ' ' :: '#' :: rest)).head? ≠ some '"' := by
  have hassoc : u ++ ' ' :: '#' :: rest = (u ++ [' ']) ++ '#' :: rest := by simp
  have hfree : '"' ∉ (u ++ [' ']).dropWhile isWhitespace := by
    intro hmem
    rcases List.mem_append.mp (List.dropWhile_sublist _ |>.subset hmem) with hmem | hmem
    · exact h hmem
    · cases List.mem_singleton.mp hmem
  rw [hassoc, trim_eq_strip, strip_append_cons rfl]
  cases hfront : (u ++ [' ']).dropWhile isWhitespace with
  | nil => simp
  | cons c front =>
    rw [hfront] at hfree
    intro hhead
    obtain rfl := Option.some.inj hhead
    exact hfree List.mem_cons_self

/-- The value of a line and of that line with something behind a mark. -/
theorem exists_tailed {k u : List Char} (hk : '=' ∉ k) (hu : '"' ∉ u) (rest : List Char) :
    ∃ e e', entryOf (trim (k ++ '=' :: u)) = some e ∧
      entryOf (trim (k ++ '=' :: (u ++ ' ' :: '#' :: rest))) = some e' ∧ Tailed e e' := by
  refine ⟨_, _, entryOf_trim hk u, entryOf_trim hk _, rfl, u, rest, ?_, ?_⟩
  · exact unquoted_of_head (head?_trim_ne hu)
  · exact unquoted_of_head (head?_trim_marked_ne hu rest)

end

-- ---------------------------------------------------------------------------
-- One line alone
-- ---------------------------------------------------------------------------

/-- The look of a text with this one setting, where there are no theme files. -/
def outcome (s : Setting F) : Option (TerminalLook F) :=
  let st := ({} : Scan F).apply s
  if st.saw then some (st.finish none) else none

theorem firstTheme_noFiles (parse : List Char → Except Stop (Option (TerminalLook F))) (urls : List Path) :
    firstTheme parse noFiles urls = .ok none := by
  induction urls with
  | nil => rfl
  | cons url urls ih => exact ih

theorem parseLookKeys_alone (fl : Floats F) {line : List Char} {e : List Char × List Char}
    (hline : '\n' ∉ line) (h : entry line = some e) :
    parseLookKeys fl noFiles 1 (textOf [line]) none = (reads fl e).map outcome := by
  have hentries : entries (textOf [line]) = [e] := by
    rw [entries_textOf (by simpa using hline), List.filterMap_cons_some h]
    rfl
  have hscan : Scan.text fl (textOf [line]) = (reads fl e).map ({} : Scan F).apply := by
    rw [scan_text_eq, hentries, List.foldlM_cons, Scan.enter, ← reads]
    cases reads fl e <;> rfl
  cases hr : reads fl e with
  | error stop =>
    rw [hr] at hscan
    rw [parseLookKeys, hscan]
    rfl
  | ok s =>
    rw [hr] at hscan
    rw [parseLookKeys_of_scan hscan, firstTheme_noFiles]
    rfl

theorem none_of_outcome {α : Type} {mk : α → Setting F} {a? b? : Option α} (hsome : ∀ a, outcome (mk a) ≠ none)
    (hone : a? = none ∨ b? = none) (h : outcome (a?.elim .nothing mk) = outcome (b?.elim .nothing mk)) :
    a? = none ∧ b? = none := by
  cases a? with
  | none =>
    cases b? with
    | none => exact ⟨rfl, rfl⟩
    | some b => exact absurd h.symm (hsome b)
  | some a =>
    cases b? with
    | none => exact absurd h (hsome a)
    | some b => rcases hone with hone | hone <;> cases hone

theorem one_colour (u rest : List Char) :
    parseHex (trim u) = none ∨ parseHex (trim (u ++ ' ' :: '#' :: rest)) = none := by
  obtain h | ⟨x, c, y, hc, rfl⟩ := blank_or isWhitespace u
  · rw [trim_eq_strip u, strip_eq_nil h]
    exact .inl rfl
  · exact .inr (parseHex_marked ⟨c, List.mem_append_right x List.mem_cons_self, hc⟩ rest)

theorem cut?_equals_trim {k : List Char} (hk : '=' ∉ k) (r : List Char) :
    cut? ['='] (trim (k ++ '=' :: r)) =
      some (k.dropWhile isWhitespace, '=' :: r.rdropWhile isWhitespace) := by
  have hdrop : '=' ∉ k.dropWhile isWhitespace := fun hmem => hk (List.dropWhile_sublist _ |>.subset hmem)
  rw [trim_eq_strip, strip_append_cons rfl, cut?_append_singleton hdrop]

theorem slotColour?_eq_none {k r : List Char} (hk : '=' ∉ k) (h : parseHex (trim r) = none) :
    slotColour? (trim (k ++ '=' :: r)) = none := by
  rw [slotColour?, cut?_equals_trim hk]
  simp [trim_rdropWhile, h]

theorem one_entry (u rest : List Char) :
    slotColour? (trim u) = none ∨ slotColour? (trim (u ++ ' ' :: '#' :: rest)) = none := by
  by_cases hmem : '=' ∈ u
  · obtain ⟨k, r, rfl, hk⟩ := List.eq_append_cons_of_mem hmem
    rw [List.append_assoc, List.cons_append]
    exact (one_colour r rest).imp (slotColour?_eq_none hk) (slotColour?_eq_none hk)
  · have hcut : cut? ['='] (trim u) = none := by
      rw [cut?_eq_none, List.singleton_infix_iff]
      exact fun hin => hmem (mem_of_mem_strip hin)
    rw [slotColour?, hcut]
    exact .inl rfl

-- ---------------------------------------------------------------------------
-- What a key overlooks
-- ---------------------------------------------------------------------------

theorem setting_eq_of_overlooks (fl : Floats F) {key : Key} {v v' : List Char}
    (hpadding : firstNumber fl v = firstNumber fl v') (h : Overlooks key v v') :
    setting fl key v = setting fl key v' := by
  cases key with
  | fontFamily | fontFamilyFallback =>
    obtain ⟨rfl, rfl⟩ := h
    rfl
  | fontSize | backgroundOpacity =>
    obtain ⟨hv, hv'⟩ := h
    simp [setting, Floats.parse, hv, hv']
  | background | foreground | cursor | splitDividerColor | paletteSlot i =>
    obtain ⟨hv, hv'⟩ := h
    rw [setting, setting, hv, hv']
  | palette =>
    obtain ⟨hv, hv'⟩ := h
    rw [setting, setting, hv, hv']
  | macosOptionAsAlt =>
    obtain ⟨hv, hv'⟩ := h
    rw [setting, setting, hv, hv']
  | theme =>
    have hname : lightThemeName v = lightThemeName v' := h
    rw [setting, setting, hname]
  | windowPaddingX | windowPaddingY => rw [setting, setting, hpadding]
  | unknown => rfl

theorem named_of_outcome {mk : List Char → Setting F} (hsome : ∀ a, outcome (mk a) ≠ none)
    (hmk : ∀ a b, outcome (mk a) = outcome (mk b) → a = b) {v v' : List Char} (hnamed : v'.isEmpty = false)
    (h : outcome (if v.isEmpty then .nothing else mk v) = outcome (if v'.isEmpty then .nothing else mk v')) :
    v' = v := by
  rw [hnamed] at h
  cases v with
  | nil => exact absurd h.symm (hsome v')
  | cons c v => exact (hmk _ _ h).symm

theorem isFloat_of_parse {fl : Floats F} {v : List Char} (h : fl.parse v = none) : isFloat v = false := by
  rw [Floats.parse] at h
  split at h
  case isTrue => cases h
  case isFalse hfloat => exact Bool.eq_false_iff.mpr hfloat

/-- The look that a line leaves alone tells what the key overlooks, of the two values. -/
theorem overlooks_of_outcome (fl : Floats F) (key : Key) {u rest : List Char}
    (h : (setting fl key (trim u)).map outcome = (setting fl key (trim (u ++ ' ' :: '#' :: rest))).map outcome) :
    Overlooks key (trim u) (trim (u ++ ' ' :: '#' :: rest)) := by
  have hmark := mark_mem u rest
  have hnamed : (trim (u ++ ' ' :: '#' :: rest)).isEmpty = false := by
    simpa using trim_marked_ne_nil u rest
  have hnumbers : fl.parse (trim u) = none ∨ fl.parse (trim (u ++ ' ' :: '#' :: rest)) = none := by
    rw [Floats.parse, Floats.parse, isFloat_of_mark hmark]
    exact .inr rfl
  cases key with
  | fontFamily =>
    refine (trim_marked_ne u rest (named_of_outcome (by nofun) (fun a b hab => ?_) hnamed (Except.ok.inj h))).elim
    exact Option.some.inj (congrArg (fun look => look.bind TerminalLook.fontFamily) hab)
  | fontFamilyFallback =>
    refine (trim_marked_ne u rest (named_of_outcome (by nofun) (fun a b hab => ?_) hnamed (Except.ok.inj h))).elim
    have hnames := congrArg (fun look => look.map TerminalLook.fontFallbacks) hab
    exact (List.cons.inj (Option.some.inj hnames)).1
  | fontSize =>
    obtain ⟨hv, hv'⟩ := none_of_outcome (by nofun) hnumbers (Except.ok.inj h)
    exact ⟨isFloat_of_parse hv, isFloat_of_mark hmark⟩
  | backgroundOpacity =>
    obtain ⟨hv, hv'⟩ := none_of_outcome (by nofun) hnumbers (Except.ok.inj h)
    exact ⟨isFloat_of_parse hv, isFloat_of_mark hmark⟩
  | background => exact none_of_outcome (by nofun) (one_colour u rest) (Except.ok.inj h)
  | foreground => exact none_of_outcome (by nofun) (one_colour u rest) (Except.ok.inj h)
  | cursor => exact none_of_outcome (by nofun) (one_colour u rest) (Except.ok.inj h)
  | splitDividerColor => exact none_of_outcome (by nofun) (one_colour u rest) (Except.ok.inj h)
  | paletteSlot i => exact none_of_outcome (by nofun) (one_colour u rest) (Except.ok.inj h)
  | palette => exact none_of_outcome (by nofun) (one_entry u rest) (Except.ok.inj h)
  | macosOptionAsAlt =>
    refine ⟨?_, parseBool_of_mark hmark⟩
    have hab := congrArg (fun look => look.bind TerminalLook.macosOptionAsAlt) (Except.ok.inj h)
    have houtcome : ∀ b, (outcome (.macosOptionAsAlt b : Setting F)).bind TerminalLook.macosOptionAsAlt = b := by
      intro b
      cases b <;> rfl
    rw [houtcome, houtcome, parseBool_of_mark hmark] at hab
    exact hab
  | theme =>
    change lightThemeName (trim u) = lightThemeName (trim (u ++ ' ' :: '#' :: rest))
    rw [setting, setting] at h
    cases hname : lightThemeName (trim u) with
    | error stop =>
      cases hname' : lightThemeName (trim (u ++ ' ' :: '#' :: rest)) with
      | error stop' => rw [hname, hname'] at h; rw [Except.error.inj h]
      | ok name' => rw [hname, hname'] at h; cases h
    | ok name =>
      cases hname' : lightThemeName (trim (u ++ ' ' :: '#' :: rest)) with
      | error stop' => rw [hname, hname'] at h; cases h
      | ok name' =>
        rw [hname, hname'] at h
        have hab := congrArg (fun look => look.bind TerminalLook.themeName) (Except.ok.inj h)
        rw [Option.some.inj hab]
  | windowPaddingX | windowPaddingY => trivial
  | unknown => trivial

-- ---------------------------------------------------------------------------
-- With and without the comment
-- ---------------------------------------------------------------------------

variable {fl : Floats F} {line : List Char}

theorem not_mem_of_hex {rest : List Char} (h : parseHex (trim rest) ≠ none) : '=' ∉ rest := fun hmem =>
  h (parseHex_eq_none (c := '=') (by decide) (by decide) (by rw [trim_trim]; exact mem_strip_of_neg rfl hmem))

theorem overlooked_iff {line' : List Char} {e e' : List Char × List Char} (he : entryOf (trim line) = some e)
    (he' : entryOf (trim line') = some e') : Overlooked line line' ↔ Overlooks (keyOf e.1) e.2 e'.2 := by
  refine ⟨fun h => h e e' he he', fun h d d' hd hd' => ?_⟩
  obtain rfl := Option.some.inj (he.symm.trans hd)
  obtain rfl := Option.some.inj (he'.symm.trans hd')
  exact h

/-- The comment is not looked at, or the line has one value with it and the other without, and it
is spared just if the key overlooks them. -/
theorem entries_of_setting (h : SettingLine line) (comment : List Char) :
    (entry (withComment line comment) = entry line ∧ Spared line comment) ∨
      ∃ e e', Tailed e e' ∧ (Spared line comment ↔ Overlooks (keyOf e.1) e.2 e'.2) ∧
        (entry line = some e ∧ entry (withComment line comment) = some e' ∨
          entry line = some e' ∧ entry (withComment line comment) = some e) := by
  have hline := entry_line h
  have hcomment := entry_withComment h comment
  cases hcut : cut? [' ', '#'] (trim line) with
  | none =>
    have huncommented : uncommented (trim line) = trim line := by rw [uncommented, hcut]
    rw [huncommented] at hline
    rw [uncommented_of_unmarked h hcut] at hcomment
    by_cases hhex : parseHex (trim comment) = none
    · rw [if_pos hhex, ← hline] at hcomment
      refine .inl ⟨hcomment, ?_⟩
      rw [Spared, hcut]
      exact .inl hhex
    · rw [if_neg hhex] at hcomment
      obtain ⟨k, u, hku, hk⟩ := List.eq_append_cons_of_mem h.equals
      have hu : '"' ∉ u := fun hmem => h.noQuote (by rw [hku]; simp [hmem])
      obtain ⟨e, e', he, he', htailed⟩ := exists_tailed hk hu (' ' :: comment)
      have hwith : withComment line comment = k ++ '=' :: (u ++ ' ' :: '#' :: (' ' :: comment)) := by
        simp [withComment, hku]
      rw [← hku] at he
      rw [← hwith] at he'
      refine .inr ⟨e, e', htailed, ?_, .inl ⟨hline.trans he, hcomment.trans he'⟩⟩
      rw [Spared, hcut]
      simp only [hhex, false_or]
      exact overlooked_iff he he'
  | some parts =>
    obtain ⟨front, back⟩ := parts
    obtain ⟨htrim, rest, rfl⟩ := of_cut? hcut
    have hdrop : ([' ', '#'] ++ rest).drop 2 = rest := rfl
    rw [uncommented_of_marked h hcut] at hcomment
    by_cases hhex : parseHex (trim rest) = none
    · have huncommented : uncommented (trim line) = trim front := by
        rw [uncommented, hcut]
        simp only [hdrop, hhex, Option.isNone_none, if_true]
      rw [huncommented, ← hcomment] at hline
      refine .inl ⟨hline.symm, ?_⟩
      rw [Spared, hcut]
      exact .inl hhex
    · have huncommented : uncommented (trim line) = trim line := by
        rw [uncommented, hcut]
        simp only [hdrop, Option.isNone_iff_eq_none, hhex, if_false]
      rw [huncommented] at hline
      have hequals : '=' ∈ front := by
        have hmem : '=' ∈ trim line := mem_strip_of_neg rfl h.equals
        rw [htrim, List.mem_append, List.mem_append] at hmem
        rcases hmem with hmem | hmem | hmem
        · exact hmem
        · simp at hmem
        · exact absurd hmem (not_mem_of_hex hhex)
      obtain ⟨k, u, rfl, hk⟩ := List.eq_append_cons_of_mem hequals
      have hu : '"' ∉ u := by
        intro hmem
        have hin : '"' ∈ trim line := by rw [htrim]; simp [hmem]
        exact h.noQuote (mem_of_mem_strip hin)
      obtain ⟨e, e', he, he', htailed⟩ := exists_tailed hk hu rest
      have hwhole : trim (k ++ '=' :: (u ++ ' ' :: '#' :: rest)) = trim line := by
        rw [← trim_trim line, htrim]
        simp
      rw [hwhole] at he'
      refine .inr ⟨e, e', htailed, ?_, .inr ⟨hline.trans he', hcomment.trans he⟩⟩
      rw [Spared, hcut]
      simp only [hdrop, hhex, false_or]
      exact overlooked_iff he he'

theorem noNewline_withComment (h : SettingLine line) {comment : List Char} (hcomment : '\n' ∉ comment) :
    '\n' ∉ withComment line comment := by
  simp [withComment, h.noNewline, hcomment]

/-- Lines that read alike can stand for each other in any text. -/
theorem parse_textOf_congr {line line' : List Char} (hline : '\n' ∉ line) (hline' : '\n' ∉ line')
    (h : (entry line).map (reads fl) = (entry line').map (reads fl)) (files : Files) (turns : Nat)
    (directory : Option Path) {before after : List (List Char)} (hlines : ∀ l ∈ before ++ after, '\n' ∉ l) :
    parseLookKeys fl files turns (textOf (before ++ line :: after)) directory =
      parseLookKeys fl files turns (textOf (before ++ line' :: after)) directory := by
  have hall : ∀ {l : List Char}, '\n' ∉ l → ∀ m ∈ before ++ l :: after, '\n' ∉ m := by
    intro l hl m hm
    rcases List.mem_append.mp hm with hm | hm
    · exact hlines m (List.mem_append_left _ hm)
    · rcases List.mem_cons.mp hm with rfl | hm
      · exact hl
      · exact hlines m (List.mem_append_right _ hm)
  have hread : ∀ l : List Char, (before ++ l :: after).filterMap (fun l => (entry l).map (reads fl)) =
      before.filterMap (fun l => (entry l).map (reads fl)) ++
        ((entry l).map (reads fl)).toList ++ after.filterMap (fun l => (entry l).map (reads fl)) := by
    intro l
    rw [List.filterMap_append, List.filterMap_cons, List.append_assoc]
    cases (entry l).map (reads fl) <;> rfl
  refine parseLookKeys_congr ?_ files turns directory
  rw [entries_textOf (hall hline), entries_textOf (hall hline'), List.map_filterMap, List.map_filterMap,
    hread, hread, h]

/-- A comment behind a setting changes nothing just if it is spared: it is not taken for a colour
and the line has none behind a blank, or the key overlooks both values. -/
theorem comment_iff (fl : Floats F) (line comment : List Char) (h : SettingLine line)
    (hcomment : '\n' ∉ comment) : Unchanged fl line comment ↔ Spared line comment := by
  have hwith := noNewline_withComment h hcomment
  obtain ⟨hentry, hspared⟩ | ⟨e, e', htailed, hspared, hentries⟩ := entries_of_setting h comment
  · refine ⟨fun _ => hspared, fun _ files turns directory before after hlines => ?_⟩
    exact parse_textOf_congr hwith h.noNewline (by rw [hentry]) files turns directory hlines
  · obtain ⟨hkey, u, rest, hvalue, hvalue'⟩ := htailed
    rw [hspared, hvalue, hvalue']
    constructor
    · intro hsame
      -- the line alone tells the two values apart
      have halone := hsame noFiles 1 none [] [] (by simp)
      have houtcome : (reads fl e).map outcome = (reads fl e').map outcome := by
        rcases hentries with ⟨hline, hline'⟩ | ⟨hline, hline'⟩
        · rw [← parseLookKeys_alone fl h.noNewline hline, ← parseLookKeys_alone fl hwith hline']
          exact halone.symm
        · rw [← parseLookKeys_alone fl h.noNewline hline, ← parseLookKeys_alone fl hwith hline']
          exact halone
      rw [reads, reads, ← hkey, hvalue, hvalue'] at houtcome
      exact overlooks_of_outcome fl (keyOf e.1) houtcome
    · intro hoverlooks files turns directory before after hlines
      have hreads : reads fl e = reads fl e' := by
        rw [reads, reads, ← hkey, hvalue, hvalue']
        exact setting_eq_of_overlooks fl (firstNumber_marked fl u rest) hoverlooks
      have hmap : (entry (withComment line comment)).map (reads fl) = (entry line).map (reads fl) := by
        rcases hentries with ⟨hline, hline'⟩ | ⟨hline, hline'⟩
        · rw [hline, hline', Option.map_some, Option.map_some, hreads]
        · rw [hline, hline', Option.map_some, Option.map_some, hreads]
      exact parse_textOf_congr hwith h.noNewline hmap files turns directory hlines

/-- Numbers by what is in front of the point. -/
def wholeFloats : Floats Nat where
  value text := (text.takeWhile Char.isDigit).foldl (fun n c => 10 * n + (c.toNat - 48)) 0
  clampUnit n := min n 1

theorem comment_iff_note : Unchanged wholeFloats "font-size = 14".toList "note".toList :=
  (comment_iff wholeFloats "font-size = 14".toList "note".toList
    ⟨by decide, by decide, by decide, by decide⟩ (by decide)).mpr (.inl (by decide))

/-- With a comment behind it the colour itself is taken for the comment. -/
theorem commented_colour_lost :
    let line := "background = #fff".toList
    parseLookKeys wholeFloats noFiles 1 (textOf [line]) none = .ok (some { background := some 0xffffffff }) ∧
      parseLookKeys wholeFloats noFiles 1 (textOf [withComment line "note".toList]) none = .ok none ∧
      SettingLine line ∧ ¬ Unchanged wholeFloats line "note".toList := by
  intro line
  have hsetting : SettingLine line := ⟨by decide, by decide, by decide, by decide⟩
  have hentry : entry line = some ("background".toList, "#fff".toList) := by decide
  have hentry' : entry (withComment line "note".toList) = some ("background".toList, []) := by decide
  have hkey : keyOf "background".toList = .background := by decide
  have hcolour : parseHex "#fff".toList = some 0xffffffff := by decide
  have halone : parseLookKeys wholeFloats noFiles 1 (textOf [line]) none =
      .ok (some { background := some 0xffffffff }) := by
    rw [parseLookKeys_alone wholeFloats hsetting.noNewline hentry, reads, hkey, setting, hcolour]
    rfl
  have halone' :
      parseLookKeys wholeFloats noFiles 1 (textOf [withComment line "note".toList]) none = .ok none := by
    rw [parseLookKeys_alone wholeFloats (noNewline_withComment hsetting (by decide)) hentry', reads, hkey]
    rfl
  refine ⟨halone, halone', hsetting, fun hsame => ?_⟩
  have h := hsame noFiles 1 none [] [] (by simp)
  rw [List.nil_append, List.nil_append, halone, halone'] at h
  cases h

end Rill.Look
