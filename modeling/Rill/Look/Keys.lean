import Rill.Lib.Fields
import Rill.Lib.Slice
import Rill.Orchestrate.Trust

/-!
# Look keys

A look file is read line by line: a comment is cut off, the key and the value are told
apart, and the value is read as its key asks. Only a theme's value is cut at a byte that was
not found in it.
-/

namespace Rill.Look

open Lib Orchestrate

/-- A slice that is out of range or inside a character, or a file that is still being read. -/
inductive Stop
  | sliced
  | running
  deriving DecidableEq, Repr

/-- `text[..i]` and `text[i..]`. -/
def slices (text : List Char) (i : Nat) : Except Stop (List Char × List Char) :=
  match cutAt? i text with
  | some parts => pure parts
  | none => throw .sliced

def eqIgnoreAsciiCase (a b : List Char) : Bool := a.map Char.toLower = b.map Char.toLower

-- ---------------------------------------------------------------------------
-- Values
-- ---------------------------------------------------------------------------

def isHexDigit (c : Char) : Bool :=
  c.isDigit || 'a' ≤ c && c ≤ 'f' || 'A' ≤ c && c ≤ 'F'

def hexDigit (c : Char) : UInt32 :=
  .ofNat (if c.isDigit then c.toNat - 48 else if 'a' ≤ c then c.toNat - 87 else c.toNat - 55)

def fromHex (digits : List Char) : UInt32 := digits.foldl (fun n c => n * 16 + hexDigit c) 0

def parseHex (value : List Char) : Option UInt32 :=
  let hex := (trim value).dropWhile fun c => c = '#'
  if !hex.all isHexDigit then none
  else
    let hex := if hex.length = 3 then hex.flatMap fun c => [c, c] else hex
    if hex.length ≠ 6 then none else some (fromHex hex <<< 8 ||| 0xff)

def dropSign : List Char → List Char
  | '+' :: l | '-' :: l => l
  | l => l

/-- What may follow the digits of a number. -/
def isExponent : List Char → Bool
  | [] => true
  | c :: l => (c = 'e' || c = 'E') && !(dropSign l).isEmpty && (dropSign l).all Char.isDigit

def isNumber (l : List Char) : Bool :=
  let whole := l.takeWhile Char.isDigit
  match l.dropWhile Char.isDigit with
  | '.' :: rest => !(whole.isEmpty && (rest.takeWhile Char.isDigit).isEmpty) &&
      isExponent (rest.dropWhile Char.isDigit)
  | rest => !whole.isEmpty && isExponent rest

/-- The texts that are read as a number with a binary point. -/
def isFloat (text : List Char) : Bool :=
  let text := dropSign text
  isNumber text || ["inf", "infinity", "nan"].any fun name => text.map Char.toLower = name.toList

/-- Such numbers: the one that a text stands for, and the nearest between 0 and 1. -/
structure Floats (F : Type) where
  value : List Char → F
  clampUnit : F → F

variable {F : Type}

def Floats.parse (fl : Floats F) (text : List Char) : Option F :=
  if isFloat text then some (fl.value text) else none

def firstNumber (fl : Floats F) (value : List Char) : Option F :=
  fl.parse (value.takeWhile fun c => !(c = ',' || isWhitespace c))

def parseBool (value : List Char) : Option Bool :=
  match String.ofList (value.map Char.toLower) with
  | "true" | "1" | "yes" => some true
  | "false" | "0" | "no" => some false
  | _ => none

def slot? (text : List Char) : Option (Fin 16) :=
  (decimalBelow (2 ^ 64) text).bind fun i => if h : i ≤ 15 then some ⟨i, Nat.lt_succ_of_le h⟩ else none

-- ---------------------------------------------------------------------------
-- Theme names
-- ---------------------------------------------------------------------------

/-- The name behind `light:` in the first part that has one. -/
def lightPart? : List (List Char) → Except Stop (Option (List Char))
  | [] => pure none
  | part :: parts => do
    if 6 < byteLen part then
      let (head, name) ← slices part 6
      if eqIgnoreAsciiCase head "light:".toList then return some (trim name)
    lightPart? parts

/-- The first part that is not behind `dark:`. -/
def plainPart? : List (List Char) → Except Stop (Option (List Char))
  | [] => pure none
  | part :: parts => do
    if byteLen part < 5 then return some part
    let (head, _) ← slices part 5
    if !eqIgnoreAsciiCase head "dark:".toList then return some part
    plainPart? parts

/-- What is behind `dark:` in the only part. -/
def onlyDark? : List (List Char) → Except Stop (Option (List Char))
  | [part] => do
    if 5 < byteLen part then
      let (head, name) ← slices part 5
      if eqIgnoreAsciiCase head "dark:".toList then return some (trim name)
    return none
  | _ => pure none

def lightThemeName (value : List Char) : Except Stop (List Char) := do
  let parts := (value.splitOn ',').map trim
  if let some name ← lightPart? parts then return name
  if let some name ← onlyDark? parts then return name
  return (← plainPart? parts).getD value

-- ---------------------------------------------------------------------------
-- Lines
-- ---------------------------------------------------------------------------

def stripNewline (line : List Char) : List Char :=
  if line.getLast? = some '\n' then
    if line.dropLast.getLast? = some '\r' then line.dropLast.dropLast else line.dropLast
  else line

def lines (text : List Char) : List (List Char) := (splitInclusive text).map stripNewline

/-- The line without its comment, where what is behind the mark is not a colour. -/
def uncomment (line : List Char) : Except Stop (List Char) := do
  let some idx := byteOf? [' ', '#'] line | return line
  let rest := trim (← slices line (idx + 2)).2
  if (parseHex rest).isNone && (parseHex ('#' :: rest)).isNone then
    return trim (← slices line idx).1
  return line

def unquote (value : List Char) : Except Stop (List Char) := do
  if 2 ≤ byteLen value && value.head? = some '"' && value.getLast? = some '"' then
    let (front, _) ← slices value (byteLen value - 1)
    return (← slices front 1).2
  return value

def keyValue (raw : List Char) : Except Stop (Option (List Char × List Char)) := do
  let line := trim raw
  if line.isEmpty || line.head? = some '#' then return none
  let line ← uncomment line
  let some eq := byteOf? ['='] line | return none
  let key := (trim (← slices line eq).1).map Char.toLower
  let value ← unquote (trim (← slices line (eq + 1)).2)
  return some (key, value)

-- ---------------------------------------------------------------------------
-- What a line sets
-- ---------------------------------------------------------------------------

inductive Key
  | fontFamily
  | fontSize
  | fontFamilyFallback
  | background
  | foreground
  | cursor
  | windowPaddingX
  | windowPaddingY
  | backgroundOpacity
  | splitDividerColor
  | theme
  | macosOptionAsAlt
  | palette
  | paletteSlot (i : Fin 16)
  | unknown
  deriving DecidableEq, Repr

def keyOf (key : List Char) : Key :=
  match String.ofList key with
  | "font-family" => .fontFamily
  | "font-size" => .fontSize
  | "font-family-fallback" => .fontFamilyFallback
  | "background" => .background
  | "foreground" => .foreground
  | "cursor" | "cursor-color" => .cursor
  | "window-padding-x" => .windowPaddingX
  | "window-padding-y" => .windowPaddingY
  | "background-opacity" => .backgroundOpacity
  | "split-divider-color" => .splitDividerColor
  | "theme" => .theme
  | "macos-option-as-alt" => .macosOptionAsAlt
  | "palette" => .palette
  | _ => ((key.dropPrefix? "palette.".toList).bind slot?).elim .unknown .paletteSlot

inductive Setting (F : Type)
  | fontFamily (name : List Char)
  | fontSize (n : F)
  | fontFallback (name : List Char)
  | background (c : UInt32)
  | foreground (c : UInt32)
  | cursor (c : UInt32)
  | paddingX (n : F)
  | paddingY (n : F)
  | backgroundOpacity (n : F)
  | splitDivider (c : UInt32)
  | themeName (name : List Char)
  | macosOptionAsAlt (b : Option Bool)
  | palette (i : Fin 16) (c : UInt32)
  | nothing

/-- The slot and the colour of a `palette` line's value. -/
def slotColour? (value : List Char) : Option (Fin 16 × UInt32) := do
  let (front, back) ← cut? ['='] value
  let i ← slot? (trim front)
  let c ← parseHex (trim (back.drop 1))
  return (i, c)

def setting (fl : Floats F) (key : Key) (value : List Char) : Except Stop (Setting F) :=
  match key with
  | .fontFamily => pure (if value.isEmpty then .nothing else .fontFamily value)
  | .fontSize => pure ((fl.parse value).elim .nothing .fontSize)
  | .fontFamilyFallback => pure (if value.isEmpty then .nothing else .fontFallback value)
  | .background => pure ((parseHex value).elim .nothing .background)
  | .foreground => pure ((parseHex value).elim .nothing .foreground)
  | .cursor => pure ((parseHex value).elim .nothing .cursor)
  | .windowPaddingX => pure ((firstNumber fl value).elim .nothing .paddingX)
  | .windowPaddingY => pure ((firstNumber fl value).elim .nothing .paddingY)
  | .backgroundOpacity =>
    pure ((fl.parse value).elim .nothing fun n => .backgroundOpacity (fl.clampUnit n))
  | .splitDividerColor => pure ((parseHex value).elim .nothing .splitDivider)
  | .theme => return .themeName (← lightThemeName value)
  | .macosOptionAsAlt => pure (.macosOptionAsAlt (parseBool value))
  | .palette => pure ((slotColour? value).elim .nothing fun e => .palette e.1 e.2)
  | .paletteSlot i => pure ((parseHex value).elim .nothing (.palette i))
  | .unknown => pure .nothing

-- ---------------------------------------------------------------------------
-- The look
-- ---------------------------------------------------------------------------

structure ThemeColors where
  background : UInt32
  foreground : UInt32
  cursor : UInt32
  ansi : Option (Fin 16 → UInt32)
  splitDivider : Option UInt32

structure TerminalLook (F : Type) where
  fontFamily : Option (List Char) := none
  fontSize : Option F := none
  fontFallbacks : List (List Char) := []
  background : Option UInt32 := none
  foreground : Option UInt32 := none
  cursor : Option UInt32 := none
  ansi : Option (Fin 16 → UInt32) := none
  paddingX : Option F := none
  paddingY : Option F := none
  backgroundOpacity : Option F := none
  splitDivider : Option UInt32 := none
  themeName : Option (List Char) := none
  macosOptionAsAlt : Option Bool := none

/-- What the lines so far have set. -/
structure Scan (F : Type) where
  look : TerminalLook F := {}
  ansi : Fin 16 → UInt32 := fun _ => 0
  ansiSet : Fin 16 → Bool := fun _ => false
  saw : Bool := false
  explicitBg : Option UInt32 := none
  explicitFg : Option UInt32 := none
  explicitCursor : Option UInt32 := none
  explicitSplit : Option UInt32 := none

namespace Scan

def apply (st : Scan F) : Setting F → Scan F
  | .fontFamily name => { st with look := { st.look with fontFamily := some name }, saw := true }
  | .fontSize n => { st with look := { st.look with fontSize := some n }, saw := true }
  | .fontFallback name =>
    { st with look := { st.look with fontFallbacks := st.look.fontFallbacks ++ [name] }, saw := true }
  | .background c => { st with explicitBg := some c, saw := true }
  | .foreground c => { st with explicitFg := some c, saw := true }
  | .cursor c => { st with explicitCursor := some c, saw := true }
  | .paddingX n => { st with look := { st.look with paddingX := some n }, saw := true }
  | .paddingY n => { st with look := { st.look with paddingY := some n }, saw := true }
  | .backgroundOpacity n => { st with look := { st.look with backgroundOpacity := some n }, saw := true }
  | .splitDivider c => { st with explicitSplit := some c, saw := true }
  | .themeName name => { st with look := { st.look with themeName := some name }, saw := true }
  | .macosOptionAsAlt b =>
    { st with look := { st.look with macosOptionAsAlt := b }, saw := st.saw || b.isSome }
  | .palette i c =>
    { st with ansi := Function.update st.ansi i c, ansiSet := Function.update st.ansiSet i true, saw := true }
  | .nothing => st

def line (fl : Floats F) (st : Scan F) (raw : List Char) : Except Stop (Scan F) := do
  match ← keyValue raw with
  | none => return st
  | some (key, value) => return st.apply (← setting fl (keyOf key) value)

def text (fl : Floats F) (text : List Char) : Except Stop (Scan F) := (lines text).foldlM (line fl) {}

def themed (look : TerminalLook F) : Option ThemeColors → TerminalLook F
  | some theme =>
    { look with
      background := some theme.background
      foreground := some theme.foreground
      cursor := some theme.cursor
      splitDivider := theme.splitDivider
      ansi := theme.ansi }
  | none => look

/-- The slots that are set, over those of the theme; without a theme, when all are set. -/
def finalAnsi (st : Scan F) (ansi : Option (Fin 16 → UInt32)) : Option (Fin 16 → UInt32) :=
  if ∃ i, st.ansiSet i then
    match ansi with
    | some slots => some fun i => if st.ansiSet i then st.ansi i else slots i
    | none => if ∀ i, st.ansiSet i then some st.ansi else none
  else ansi

/-- The look, with the colours of the theme under those of the lines. -/
def finish (st : Scan F) (theme : Option ThemeColors) : TerminalLook F :=
  let look := themed st.look theme
  { look with
    background := st.explicitBg.or look.background
    foreground := st.explicitFg.or look.foreground
    cursor := st.explicitCursor.or look.cursor
    splitDivider := st.explicitSplit.or look.splitDivider
    ansi := st.finalAnsi look.ansi }

end Scan

-- ---------------------------------------------------------------------------
-- Slices that are in range
-- ---------------------------------------------------------------------------

/-- The line without its comment, by what stands around the mark. -/
def uncommented (line : List Char) : List Char :=
  match cut? [' ', '#'] line with
  | some (front, back) => if (parseHex (trim (back.drop 2))).isNone then trim front else line
  | none => line

def unquoted (value : List Char) : List Char :=
  if 2 ≤ byteLen value && value.head? = some '"' && value.getLast? = some '"' then value.tail.dropLast
  else value

def entryOf (line : List Char) : Option (List Char × List Char) :=
  (cut? ['='] line).map fun parts =>
    ((trim parts.1).map Char.toLower, unquoted (trim (parts.2.drop 1)))

def entry (raw : List Char) : Option (List Char × List Char) :=
  let line := trim raw
  if line.isEmpty || line.head? = some '#' then none else entryOf (uncommented line)

theorem slices_append (a b : List Char) : slices (a ++ b) (byteLen a) = .ok (a, b) := by
  rw [slices, cutAt?_append]
  rfl

theorem trim_eq_strip (l : List Char) : trim l = strip isWhitespace l := rfl

theorem trim_trim (l : List Char) : trim (trim l) = trim l := strip_strip l

theorem trim_hash_cons (l : List Char) : trim ('#' :: l) = '#' :: l.rdropWhile isWhitespace :=
  strip_append_cons rfl [] l

/-- Any number of marks in front makes the same colour. -/
theorem parseHex_hash_trim (l : List Char) : parseHex ('#' :: trim l) = parseHex (trim l) := by
  have hmark : trim ('#' :: trim l) = '#' :: trim l := by
    rw [trim_hash_cons, trim, List.rdropWhile_idempotent]
  rw [parseHex, hmark, parseHex, trim_trim, List.dropWhile_cons_of_pos (by rfl)]

theorem uncomment_eq (line : List Char) : uncomment line = .ok (uncommented line) := by
  unfold uncomment uncommented byteOf?
  cases h : cut? [' ', '#'] line with
  | none => rfl
  | some parts =>
    obtain ⟨front, back⟩ := parts
    obtain ⟨rfl, rest, rfl⟩ := of_cut? h
    have hmark : byteLen front + 2 = byteLen (front ++ [' ', '#']) := by rw [byteLen_append]; rfl
    have hbehind := slices_append (front ++ [' ', '#']) rest
    rw [List.append_assoc, ← hmark] at hbehind
    have hdrop : ([' ', '#'] ++ rest).drop 2 = rest := rfl
    simp only [Option.map_some, hbehind, slices_append, bind, Except.bind, parseHex_hash_trim, hdrop,
      Bool.and_self]
    split <;> rfl

theorem unquote_eq (value : List Char) : unquote value = .ok (unquoted value) := by
  unfold unquote unquoted
  split
  case isTrue h =>
    simp only [Bool.and_eq_true, decide_eq_true_eq] at h
    obtain ⟨⟨hlen, hhead⟩, hlast⟩ := h
    cases value with
    | nil => cases hhead
    | cons c value =>
      obtain rfl := Option.some.inj hhead
      cases value using List.reverseRecOn with
      | nil => exact absurd hlen (by decide)
      | append_singleton mid d =>
        rw [← List.cons_append, List.getLast?_concat] at hlast
        obtain rfl := Option.some.inj hlast
        have hlen : byteLen ('"' :: (mid ++ ['"'])) - 1 = byteLen ('"' :: mid) := by
          simp only [byteLen_cons, byteLen_append, byteLen_nil]
          rfl
        have hback := slices_append ('"' :: mid) ['"']
        have hfront := slices_append ['"'] mid
        rw [List.cons_append] at hback
        rw [hlen, hback]
        simp only [bind, Except.bind]
        rw [show slices ('"' :: mid) 1 = .ok (['"'], mid) from hfront, List.tail_cons, List.dropLast_concat]
        rfl
  case isFalse => rfl

theorem keyValue_eq (raw : List Char) : keyValue raw = .ok (entry raw) := by
  unfold keyValue entry
  dsimp only
  split
  case isTrue => rfl
  case isFalse =>
    rw [uncomment_eq]
    simp only [bind, Except.bind, entryOf, byteOf?]
    cases h : cut? ['='] (uncommented (trim raw)) with
    | none => rfl
    | some parts =>
      obtain ⟨front, back⟩ := parts
      obtain ⟨hline, rest, rfl⟩ := of_cut? h
      have hmark : byteLen front + 1 = byteLen (front ++ ['=']) := by rw [byteLen_append]; rfl
      have hbehind := slices_append (front ++ ['=']) rest
      rw [List.append_assoc, ← hmark] at hbehind
      have hdrop : (['='] ++ rest).drop 1 = rest := rfl
      simp only [hline, Option.map_some, slices_append, hbehind, hdrop, unquote_eq]
      rfl

end Rill.Look
