import Rill.Look.Keys

/-!
# Themes

A look names a theme, which is the first of some files to give both colours; a theme file is a
look file, and can name a theme in turn. A look is read to its end when the theme names can be
cut where they are cut and the search through the files they name comes to an end.
-/

namespace Rill.Look

open Lib Orchestrate

variable {F : Type}

-- ---------------------------------------------------------------------------
-- Paths
-- ---------------------------------------------------------------------------

abbrev Path := List UInt8

def utf8 (text : List Char) : Path := text.flatMap String.utf8EncodeChar

namespace Path

def join (p q : Path) : Path :=
  if q.head? = some 0x2f then q
  else if p = [] || p.getLast? = some 0x2f then p ++ q
  else p ++ 0x2f :: q

/-- Whether the path has a root, whether it begins with a dot, and its names: by these paths
are compared. -/
def components (p : Path) : Bool × Bool × List (List UInt8) :=
  let rooted := p.head? = some 0x2f
  let parts := p.splitOn 0x2f
  (rooted, !rooted && parts.head? = some [0x2e], parts.filter fun part => part ≠ [] && part ≠ [0x2e])

def same (p q : Path) : Bool := p.components = q.components

end Path

/-- The files and directories that a search for a theme meets. -/
structure Files where
  readToString : Path → Option (List Char)
  home : Option Path
  exeDir : Option Path
  isDir : Path → Bool

def pushDir (dirs : List Path) (p : Path) : List Path :=
  if p ≠ [] && !dirs.any fun d => d.same p then dirs ++ [p] else dirs

def themeSearchDirs (files : Files) (primary : Option Path) : List Path :=
  let dirs := primary.elim [] fun p =>
    [p, p.join (utf8 "themes".toList), p.join (utf8 "fixtures/look/themes".toList)]
  let dirs := dirs ++ files.home.elim [] fun p => [p.join (utf8 ".config/rill/themes".toList)]
  let dirs := dirs ++ files.exeDir.elim [] fun p =>
    [p.join (utf8 "../Resources/themes".toList), p.join (utf8 "themes".toList)]
  let dirs := dirs ++
    (["fixtures/look/themes", "../fixtures/look/themes", "../../fixtures/look/themes"].map fun rel =>
      utf8 rel.toList).filter files.isDir
  dirs.foldl pushDir []

def normalizeTheme (name : List Char) : List Char :=
  let text := trim name
  let text := (text.dropSuffix? ".conf".toList).getD text
  (text.map fun c => if c = '-' || c = '_' then ' ' else c).map Char.toLower

/-- The files that can be the theme, the first first. -/
def candidates (files : Files) (name : List Char) (directory : Option Path) : List Path :=
  let slug := (normalizeTheme name).map fun c => if c = ' ' then '-' else c
  (themeSearchDirs files directory).flatMap fun dir =>
    [dir.join (utf8 name), dir.join (utf8 (name ++ ".conf".toList)), dir.join (utf8 slug),
      dir.join (utf8 (slug ++ ".conf".toList))]

-- ---------------------------------------------------------------------------
-- Reading a look
-- ---------------------------------------------------------------------------

def ThemeColors.ofLook (look : TerminalLook F) : Option ThemeColors := do
  let background ← look.background
  let foreground ← look.foreground
  return ⟨background, foreground, look.cursor.getD foreground, look.ansi, look.splitDivider⟩

def firstTheme (parse : List Char → Except Stop (Option (TerminalLook F))) (files : Files) :
    List Path → Except Stop (Option ThemeColors)
  | [] => pure none
  | url :: urls =>
    match files.readToString url with
    | none => firstTheme parse files urls
    | some text => do
      match (← parse text).bind ThemeColors.ofLook with
      | some theme => return some theme
      | none => firstTheme parse files urls

def resolveTheme (parse : List Char → Except Stop (Option (TerminalLook F))) (files : Files)
    (name : List Char) (directory : Option Path) : Except Stop (Option ThemeColors) :=
  firstTheme parse files (candidates files name directory)

/-- A theme file is read as a look file is, one turn deeper. -/
def parseLookKeys (fl : Floats F) (files : Files) :
    Nat → List Char → Option Path → Except Stop (Option (TerminalLook F))
  | 0, _, _ => throw .running
  | turns + 1, text, directory => do
    let st ← Scan.text fl text
    if !st.saw then return none
    let theme ← match st.look.themeName with
      | some name => resolveTheme (fun text => parseLookKeys fl files turns text none) files name directory
      | none => pure none
    return some (st.finish theme)

-- ---------------------------------------------------------------------------
-- What can be read
-- ---------------------------------------------------------------------------

/-- The part begins with the tag, in letters of either case. -/
def hasTag (tag part : List Char) : Bool := (part.take tag.length).map Char.toLower = tag

def isLight (part : List Char) : Bool := 6 < byteLen part && hasTag "light:".toList part

def isDark (part : List Char) : Bool := hasTag "dark:".toList part

/-- The parts of a theme's value can be cut behind a tag: those in front of the first light one
at byte 6, and where there is none the first that is not dark at byte 5. -/
structure Fits (value : List Char) : Prop where
  light : ∀ part ∈ ((value.splitOn ',').map trim).takeWhile fun part => !isLight part,
    6 < byteLen part → Boundary 6 part
  dark : ((value.splitOn ',').map trim).any isLight = false →
    ∀ part ∈ ((value.splitOn ',').map trim).find? fun part => !isDark part,
      5 ≤ byteLen part → Boundary 5 part

def entries (text : List Char) : List (List Char × List Char) := (lines text).filterMap entry

def FitsText (text : List Char) : Prop := ∀ e ∈ entries text, keyOf e.1 = .theme → Fits e.2

def themeName? (e : List Char × List Char) : Option (List Char) :=
  if keyOf e.1 = .theme then (lightThemeName e.2).toOption else none

def themeNameOf (es : List (List Char × List Char)) : Option (List Char) := (es.filterMap themeName?).getLast?

/-- Lines that give a colour to the key. -/
def gives (key : Key) (es : List (List Char × List Char)) : Bool :=
  es.any fun e => keyOf e.1 = key && (parseHex e.2).isSome

def givesBoth (es : List (List Char × List Char)) : Bool := gives .background es && gives .foreground es

def themePaths (files : Files) (text : List Char) (directory : Option Path) : List Path :=
  (themeNameOf (entries text)).elim [] fun name => candidates files name directory

/-- The search through the files comes to an end, with a theme or without one. -/
inductive Search (files : Files) : List Path → Bool → Prop
  | nil : Search files [] false
  | unread {url : Path} {urls : List Path} {found : Bool} (hurl : files.readToString url = none)
      (rest : Search files urls found) : Search files (url :: urls) found
  | theme {url : Path} {urls : List Path} {text : List Char} {found : Bool}
      (hurl : files.readToString url = some text) (hfits : FitsText text)
      (inner : Search files (themePaths files text none) found)
      (hgives : (found || givesBoth (entries text)) = true) : Search files (url :: urls) true
  | passed {url : Path} {urls : List Path} {text : List Char} {found later : Bool}
      (hurl : files.readToString url = some text) (hfits : FitsText text)
      (inner : Search files (themePaths files text none) found)
      (hgives : (found || givesBoth (entries text)) = false) (rest : Search files urls later) :
      Search files (url :: urls) later

structure Readable (files : Files) (text : List Char) (directory : Option Path) : Prop where
  fits : FitsText text
  ends : ∃ found, Search files (themePaths files text directory) found

-- ---------------------------------------------------------------------------
-- Theme names
-- ---------------------------------------------------------------------------

theorem eq_of_byteLen {a b t u : List Char} (h : a ++ b = t ++ u) (hlen : byteLen a = byteLen t) :
    a = t ∧ b = u := by
  have hcut := cutAt?_append a b
  rw [h, hlen, cutAt?_append] at hcut
  exact ⟨(congrArg Prod.fst (Option.some.inj hcut)).symm, (congrArg Prod.snd (Option.some.inj hcut)).symm⟩

/-- A tag in small letters that takes a byte for each. -/
structure Tag (tag : List Char) : Prop where
  lower : tag.map Char.toLower = tag
  bytes : byteLen tag = tag.length

theorem byteLen_take_of_hasTag {tag part : List Char} (htag : Tag tag) (h : hasTag tag part = true) :
    byteLen (part.take tag.length) = tag.length := by
  rw [hasTag, decide_eq_true_eq] at h
  rw [← byteLen_map_toLower, h, htag.bytes]

theorem boundary_of_hasTag {tag part : List Char} (htag : Tag tag) (h : hasTag tag part = true) :
    Boundary tag.length part :=
  ⟨part.take tag.length, part.drop tag.length, (List.take_append_drop _ _).symm, byteLen_take_of_hasTag htag h⟩

theorem eqIgnoreAsciiCase_iff {tag a b : List Char} (htag : Tag tag) (ha : byteLen a = tag.length) :
    eqIgnoreAsciiCase a tag = hasTag tag (a ++ b) := by
  rw [eqIgnoreAsciiCase, hasTag, htag.lower, decide_eq_decide]
  constructor
  · intro h
    have hlen : a.length = tag.length := by rw [← h, List.length_map]
    rw [← hlen, List.take_left]
    exact h
  · intro h
    have htake := byteLen_take_of_hasTag htag (decide_eq_true h : hasTag tag (a ++ b) = true)
    have hsplit := List.take_append_drop tag.length (a ++ b)
    rw [(eq_of_byteLen hsplit.symm (by rw [ha, htake])).1]
    exact h

theorem tag_light : Tag "light:".toList := ⟨by decide, by decide⟩

theorem tag_dark : Tag "dark:".toList := ⟨by decide, by decide⟩

theorem slices_cases (part : List Char) (i : Nat) :
    (∃ a b, part = a ++ b ∧ byteLen a = i ∧ slices part i = .ok (a, b)) ∨
      (¬ Boundary i part ∧ slices part i = .error .sliced) := by
  cases h : cutAt? i part with
  | none =>
    refine .inr ⟨fun hb => ?_, by rw [slices, h]; rfl⟩
    rw [← cutAt?_isSome_iff, h] at hb
    cases hb
  | some parts =>
    obtain ⟨a, b⟩ := parts
    obtain ⟨hpart, hlen⟩ := of_cutAt? h
    exact .inl ⟨a, b, hpart, hlen, by rw [slices, h]; rfl⟩

theorem lightPart?_cons (part : List Char) (parts : List (List Char)) :
    (∃ name, isLight part = true ∧ lightPart? (part :: parts) = .ok (some name)) ∨
      (isLight part = false ∧ (6 < byteLen part → Boundary 6 part) ∧
        lightPart? (part :: parts) = lightPart? parts) ∨
      (isLight part = false ∧ 6 < byteLen part ∧ ¬ Boundary 6 part ∧
        lightPart? (part :: parts) = .error .sliced) := by
  rw [lightPart?]
  by_cases hlen : 6 < byteLen part
  · obtain ⟨head, name, hpart, hhead, hslices⟩ | ⟨hb, hslices⟩ := slices_cases part 6
    · have htag : eqIgnoreAsciiCase head "light:".toList = isLight part := by
        rw [isLight, decide_eq_true hlen, Bool.true_and, hpart]
        exact eqIgnoreAsciiCase_iff tag_light hhead
      simp only [hlen, if_true, hslices, bind, Except.bind, htag]
      cases hlight : isLight part with
      | true => exact .inl ⟨trim name, rfl, rfl⟩
      | false => exact .inr (.inl ⟨rfl, fun _ => ⟨head, name, hpart, hhead⟩, rfl⟩)
    · have hlight : isLight part = false := by
        rw [isLight, Bool.and_eq_false_iff]
        exact .inr (Bool.eq_false_iff.mpr fun htag => hb (boundary_of_hasTag tag_light htag))
      refine .inr (.inr ⟨hlight, hlen, hb, ?_⟩)
      simp only [hlen, if_true, hslices, bind, Except.bind]
  · have hlight : isLight part = false := by simp [isLight, hlen]
    refine .inr (.inl ⟨hlight, fun h => absurd h hlen, ?_⟩)
    simp only [hlen, if_false]

theorem lightPart?_ok_iff (parts : List (List Char)) :
    (∃ name?, lightPart? parts = .ok name?) ↔
      ∀ part ∈ parts.takeWhile fun part => !isLight part, 6 < byteLen part → Boundary 6 part := by
  induction parts with
  | nil => simp [lightPart?, pure, Except.pure]
  | cons part parts ih =>
    obtain ⟨name, hlight, hok⟩ | ⟨hlight, hb, hnext⟩ | ⟨hlight, hlen, hb, herror⟩ :=
      lightPart?_cons part parts
    · simp [hok, hlight]
    · simpa [hnext, ih, hlight] using fun _ => hb
    · simp [herror, hlight, hlen, hb]

/-- Whether there is a light part is told by what comes out. -/
theorem isSome_of_lightPart? {parts : List (List Char)} {name? : Option (List Char)}
    (h : lightPart? parts = .ok name?) : name?.isSome = parts.any isLight := by
  induction parts with
  | nil => cases h; rfl
  | cons part parts ih =>
    obtain ⟨name, hlight, hok⟩ | ⟨hlight, -, hnext⟩ | ⟨-, -, -, herror⟩ := lightPart?_cons part parts
    · rw [hok] at h
      cases h
      simp [hlight]
    · rw [List.any_cons, hlight, Bool.false_or]
      exact ih (hnext ▸ h)
    · rw [herror] at h
      cases h

theorem plainPart?_cons (part : List Char) (parts : List (List Char)) :
    (isDark part = false ∧ (5 ≤ byteLen part → Boundary 5 part) ∧
        plainPart? (part :: parts) = .ok (some part)) ∨
      (isDark part = true ∧ plainPart? (part :: parts) = plainPart? parts) ∨
      (isDark part = false ∧ 5 ≤ byteLen part ∧ ¬ Boundary 5 part ∧
        plainPart? (part :: parts) = .error .sliced) := by
  rw [plainPart?]
  by_cases hlen : byteLen part < 5
  · have hdark : isDark part = false := Bool.eq_false_iff.mpr fun htag => by
      obtain ⟨a, b, rfl, ha⟩ := boundary_of_hasTag tag_dark htag
      rw [byteLen_append, ha] at hlen
      exact absurd hlen (Nat.not_lt_of_le (Nat.le_add_right 5 _))
    refine .inl ⟨hdark, fun h => absurd hlen (Nat.not_lt_of_le h), ?_⟩
    simp only [hlen, if_true]
    rfl
  · obtain ⟨head, name, hpart, hhead, hslices⟩ | ⟨hb, hslices⟩ := slices_cases part 5
    · have htag : eqIgnoreAsciiCase head "dark:".toList = isDark part := by
        rw [isDark, hpart]
        exact eqIgnoreAsciiCase_iff tag_dark hhead
      simp only [hlen, if_false, hslices, bind, Except.bind, htag]
      cases hdark : isDark part with
      | true => exact .inr (.inl ⟨rfl, rfl⟩)
      | false => exact .inl ⟨rfl, fun _ => ⟨head, name, hpart, hhead⟩, rfl⟩
    · have hdark : isDark part = false :=
        Bool.eq_false_iff.mpr fun htag => hb (boundary_of_hasTag tag_dark htag)
      refine .inr (.inr ⟨hdark, Nat.le_of_not_lt hlen, hb, ?_⟩)
      simp only [hlen, if_false, hslices, bind, Except.bind]

theorem plainPart?_ok_iff (parts : List (List Char)) :
    (∃ part?, plainPart? parts = .ok part?) ↔
      ∀ part ∈ parts.find? fun part => !isDark part, 5 ≤ byteLen part → Boundary 5 part := by
  induction parts with
  | nil => simp [plainPart?, pure, Except.pure]
  | cons part parts ih =>
    obtain ⟨hdark, hb, hok⟩ | ⟨hdark, hnext⟩ | ⟨hdark, hlen, hb, herror⟩ := plainPart?_cons part parts
    · simpa [hok, hdark] using hb
    · simp [hnext, ih, hdark]
    · simp [herror, hdark, hlen, hb]

/-- The only part's cut is one of those for the first part that is not dark. -/
theorem onlyDark?_cases (parts : List (List Char)) :
    (∃ part name, parts = [part] ∧ isDark part = true ∧ onlyDark? parts = .ok (some name)) ∨
      onlyDark? parts = .ok none ∨
      (onlyDark? parts = .error .sliced ∧ plainPart? parts = .error .sliced) := by
  match parts with
  | [] => exact .inr (.inl rfl)
  | _ :: _ :: _ => exact .inr (.inl rfl)
  | [part] =>
    rw [onlyDark?]
    by_cases hlen : 5 < byteLen part
    · obtain ⟨head, name, hpart, hhead, hslices⟩ | ⟨hb, hslices⟩ := slices_cases part 5
      · have htag : eqIgnoreAsciiCase head "dark:".toList = isDark part := by
          rw [isDark, hpart]
          exact eqIgnoreAsciiCase_iff tag_dark hhead
        simp only [hlen, if_true, hslices, bind, Except.bind, htag]
        cases hdark : isDark part with
        | true => exact .inl ⟨part, trim name, rfl, hdark, rfl⟩
        | false => exact .inr (.inl rfl)
      · refine .inr (.inr ⟨?_, ?_⟩)
        · simp only [hlen, if_true, hslices, bind, Except.bind]
        · obtain ⟨-, hfree, -⟩ | ⟨hdark, -⟩ | ⟨-, -, -, herror⟩ := plainPart?_cons part []
          · exact absurd (hfree (Nat.le_of_lt hlen)) hb
          · exact absurd (boundary_of_hasTag tag_dark hdark) hb
          · exact herror
    · simp only [hlen, if_false]
      exact .inr (.inl rfl)

theorem lightThemeName_ok_iff (value : List Char) : (∃ name, lightThemeName value = .ok name) ↔ Fits value := by
  have hfits : Fits value ↔ (∃ name?, lightPart? ((value.splitOn ',').map trim) = .ok name?) ∧
      (((value.splitOn ',').map trim).any isLight = false →
        ∃ part?, plainPart? ((value.splitOn ',').map trim) = .ok part?) := by
    rw [lightPart?_ok_iff, plainPart?_ok_iff]
    exact ⟨fun h => ⟨h.light, h.dark⟩, fun h => ⟨h.1, h.2⟩⟩
  rw [hfits, lightThemeName]
  generalize (value.splitOn ',').map trim = parts
  cases hlight : lightPart? parts with
  | error e => simp [bind, Except.bind]
  | ok name? =>
    have hsome := isSome_of_lightPart? hlight
    cases name? with
    | some name => simp [bind, Except.bind, pure, Except.pure, ← hsome]
    | none =>
      have hany : parts.any isLight = false := hsome.symm
      obtain ⟨part, name, rfl, hdark, hok⟩ | hnone | ⟨herror, hplain⟩ := onlyDark?_cases parts
      · have hplain : plainPart? [part] = .ok none := by
          obtain ⟨hlight, -⟩ | ⟨-, hnext⟩ | ⟨hlight, -⟩ := plainPart?_cons part []
          · rw [hdark] at hlight; cases hlight
          · exact hnext
          · rw [hdark] at hlight; cases hlight
        simp [bind, Except.bind, pure, Except.pure, hok, hplain]
      · cases hplain : plainPart? parts with
        | error e => simp [bind, Except.bind, hnone, hany]
        | ok part? => simp [bind, Except.bind, pure, Except.pure, hnone]
      · simp [bind, Except.bind, herror, hplain, hany]

-- ---------------------------------------------------------------------------
-- The lines of a text
-- ---------------------------------------------------------------------------

def Scan.enter (fl : Floats F) (st : Scan F) (e : List Char × List Char) : Except Stop (Scan F) := do
  return st.apply (← setting fl (keyOf e.1) e.2)

theorem scan_text_eq (fl : Floats F) (text : List Char) :
    Scan.text fl text = (entries text).foldlM (Scan.enter fl) {} := by
  rw [Scan.text, entries]
  generalize ({} : Scan F) = st
  induction lines text generalizing st with
  | nil => rfl
  | cons raw rest ih =>
    rw [List.foldlM_cons, Scan.line, keyValue_eq]
    cases h : entry raw with
    | none =>
      rw [List.filterMap_cons_none h]
      exact ih st
    | some e =>
      rw [List.filterMap_cons_some h, List.foldlM_cons, Scan.enter]
      cases hset : setting fl (keyOf e.1) e.2 with
      | error stop => simp [bind, Except.bind, hset]
      | ok s =>
        simp only [bind, Except.bind, hset, pure, Except.pure]
        exact ih (st.apply s)

theorem setting_ok_iff (fl : Floats F) (key : Key) (value : List Char) :
    (∃ s, setting fl key value = .ok s) ↔ (key = .theme → Fits value) := by
  cases key with
  | theme =>
    rw [← lightThemeName_ok_iff, setting]
    cases lightThemeName value <;> simp [bind, Except.bind, pure, Except.pure]
  | _ => simp [setting, pure, Except.pure]

theorem foldlM_enter_ok_iff (fl : Floats F) (es : List (List Char × List Char)) (st : Scan F) :
    (∃ st', es.foldlM (Scan.enter fl) st = .ok st') ↔ ∀ e ∈ es, keyOf e.1 = .theme → Fits e.2 := by
  induction es generalizing st with
  | nil => simp [pure, Except.pure]
  | cons e es ih =>
    rw [List.foldlM_cons, Scan.enter, List.forall_mem_cons, ← setting_ok_iff fl]
    cases hset : setting fl (keyOf e.1) e.2 with
    | error stop => simp [bind, Except.bind]
    | ok s => simpa [bind, Except.bind, pure, Except.pure] using ih (st.apply s)

namespace Setting

def themeName? : Setting F → Option (List Char)
  | .themeName name => some name
  | _ => none

def background? : Setting F → Option UInt32
  | .background c => some c
  | _ => none

def foreground? : Setting F → Option UInt32
  | .foreground c => some c
  | _ => none

end Setting

section
variable (st : Scan F) (s : Setting F)

theorem themeName_apply : (st.apply s).look.themeName = s.themeName?.or st.look.themeName := by
  cases s <;> rfl

theorem explicitBg_apply : (st.apply s).explicitBg = s.background?.or st.explicitBg := by cases s <;> rfl

theorem explicitFg_apply : (st.apply s).explicitFg = s.foreground?.or st.explicitFg := by cases s <;> rfl

theorem bare_apply : (st.apply s).look.background = st.look.background ∧
    (st.apply s).look.foreground = st.look.foreground := by
  cases s <;> exact ⟨rfl, rfl⟩

theorem saw_apply (h : st.saw = true ∨ s.themeName?.isSome = true ∨ s.background?.isSome = true) :
    (st.apply s).saw = true := by
  cases s with
  | macosOptionAsAlt b =>
    rcases h with h | h | h
    · rw [Scan.apply, h, Bool.true_or]
    · cases h
    · cases h
  | nothing =>
    rcases h with h | h | h
    · exact h
    · cases h
    · cases h
  | _ => rfl

end

theorem setting_spec {fl : Floats F} {e : List Char × List Char} {s : Setting F}
    (h : setting fl (keyOf e.1) e.2 = .ok s) :
    s.themeName? = themeName? e ∧
      s.background?.isSome = (keyOf e.1 = .background && (parseHex e.2).isSome) ∧
      s.foreground?.isSome = (keyOf e.1 = .foreground && (parseHex e.2).isSome) := by
  rw [themeName?]
  generalize keyOf e.1 = key at h
  cases key with
  | theme =>
    rw [setting] at h
    cases hname : lightThemeName e.2 with
    | error stop => rw [hname] at h; cases h
    | ok name =>
      rw [hname] at h
      obtain rfl := Except.ok.inj h
      exact ⟨rfl, rfl, rfl⟩
  | fontFamily | fontFamilyFallback =>
    obtain rfl := Except.ok.inj h
    split <;> exact ⟨rfl, rfl, rfl⟩
  | background | foreground | cursor | splitDividerColor | paletteSlot =>
    obtain rfl := Except.ok.inj h
    cases parseHex e.2 <;> exact ⟨rfl, rfl, rfl⟩
  | fontSize | backgroundOpacity =>
    obtain rfl := Except.ok.inj h
    cases fl.parse e.2 <;> exact ⟨rfl, rfl, rfl⟩
  | windowPaddingX | windowPaddingY =>
    obtain rfl := Except.ok.inj h
    cases firstNumber fl e.2 <;> exact ⟨rfl, rfl, rfl⟩
  | palette =>
    obtain rfl := Except.ok.inj h
    cases slotColour? e.2 <;> exact ⟨rfl, rfl, rfl⟩
  | macosOptionAsAlt | unknown =>
    obtain rfl := Except.ok.inj h
    exact ⟨rfl, rfl, rfl⟩

/-- What the entries have set is known from them. -/
structure Sums (es : List (List Char × List Char)) (st : Scan F) : Prop where
  themeName : st.look.themeName = themeNameOf es
  background : st.explicitBg.isSome = gives .background es
  foreground : st.explicitFg.isSome = gives .foreground es
  saw : st.look.themeName.isSome = true ∨ st.explicitBg.isSome = true → st.saw = true
  bare : st.look.background = none ∧ st.look.foreground = none

theorem gives_concat (key : Key) (es : List (List Char × List Char)) (e : List Char × List Char) :
    gives key (es ++ [e]) = (gives key es || (keyOf e.1 = key && (parseHex e.2).isSome)) := by
  simp [gives]

theorem themeNameOf_concat (es : List (List Char × List Char)) (e : List Char × List Char) :
    themeNameOf (es ++ [e]) = (themeName? e).or (themeNameOf es) := by
  rw [themeNameOf, List.filterMap_append, List.getLast?_append, themeNameOf]
  cases h : themeName? e with
  | none => simp [h]
  | some name => simp [h]

theorem Sums.enter {fl : Floats F} {es : List (List Char × List Char)} {st st' : Scan F}
    {e : List Char × List Char} (h : Sums es st) (hst : st.enter fl e = .ok st') : Sums (es ++ [e]) st' := by
  obtain ⟨s, hs, rfl⟩ : ∃ s, setting fl (keyOf e.1) e.2 = .ok s ∧ st' = st.apply s := by
    rw [Scan.enter] at hst
    cases hset : setting fl (keyOf e.1) e.2 with
    | error stop => rw [hset] at hst; cases hst
    | ok s => rw [hset] at hst; exact ⟨s, rfl, (Except.ok.inj hst).symm⟩
  obtain ⟨hname, hbg, hfg⟩ := setting_spec hs
  constructor
  · rw [themeName_apply, themeNameOf_concat, hname, h.themeName]
  · rw [explicitBg_apply, gives_concat, Option.isSome_or, hbg, h.background, Bool.or_comm]
  · rw [explicitFg_apply, gives_concat, Option.isSome_or, hfg, h.foreground, Bool.or_comm]
  · rw [themeName_apply, explicitBg_apply, Option.isSome_or, Option.isSome_or, Bool.or_eq_true,
      Bool.or_eq_true]
    rintro ((hsome | hold) | (hsome | hold))
    · exact saw_apply st s (.inr (.inl hsome))
    · exact saw_apply st s (.inl (h.saw (.inl hold)))
    · exact saw_apply st s (.inr (.inr hsome))
    · exact saw_apply st s (.inl (h.saw (.inr hold)))
  · rw [(bare_apply st s).1, (bare_apply st s).2]
    exact h.bare

theorem sums_of_foldlM {fl : Floats F} {es : List (List Char × List Char)} {st : Scan F}
    (h : es.foldlM (Scan.enter fl) {} = .ok st) : Sums es st := by
  induction es using List.reverseRecOn generalizing st with
  | nil =>
    obtain rfl := Except.ok.inj h
    refine ⟨rfl, rfl, rfl, ?_, rfl, rfl⟩
    rintro (h | h) <;> cases h
  | append_singleton es e ih =>
    rw [List.foldlM_append] at h
    cases hes : es.foldlM (Scan.enter fl) {} with
    | error stop => rw [hes] at h; cases h
    | ok st' =>
      have hlast : [e].foldlM (Scan.enter fl) st' = .ok st := by rwa [hes] at h
      rw [List.foldlM_cons, funext fun st => List.foldlM_nil, bind_pure] at hlast
      exact (ih hes).enter hlast

-- ---------------------------------------------------------------------------
-- The end of a search
-- ---------------------------------------------------------------------------

/-- A scan that comes through is of a text whose theme names fit. -/
theorem scan_text_ok_iff (fl : Floats F) (text : List Char) :
    (∃ st, Scan.text fl text = .ok st) ↔ FitsText text := by
  simp only [scan_text_eq]
  exact foldlM_enter_ok_iff fl (entries text) {}

theorem isSome_ofLook (look : TerminalLook F) :
    (ThemeColors.ofLook look).isSome = (look.background.isSome && look.foreground.isSome) := by
  rw [ThemeColors.ofLook]
  cases look.background with
  | none => rfl
  | some background => cases look.foreground <;> rfl

theorem isSome_ofLook_finish {es : List (List Char × List Char)} {st : Scan F} (h : Sums es st)
    (theme : Option ThemeColors) :
    (ThemeColors.ofLook (st.finish theme)).isSome = (theme.isSome || givesBoth es) := by
  rw [isSome_ofLook, givesBoth, ← h.background, ← h.foreground]
  cases theme with
  | none => simp [Scan.finish, Scan.themed, h.bare.1, h.bare.2]
  | some theme => simp [Scan.finish, Scan.themed]

variable {fl : Floats F} {files : Files}

/-- The theme files as they are read when so many turns are left. -/
def parseTheme (fl : Floats F) (files : Files) (turns : Nat) (text : List Char) :
    Except Stop (Option (TerminalLook F)) :=
  parseLookKeys fl files turns text none

theorem parseLookKeys_of_scan {text : List Char} {st : Scan F} (h : Scan.text fl text = .ok st) (turns : Nat)
    (directory : Option Path) :
    parseLookKeys fl files (turns + 1) text directory =
      (firstTheme (parseTheme fl files turns) files (themePaths files text directory)).map fun theme =>
        if st.saw then some (st.finish theme) else none := by
  have hsums : Sums (entries text) st := sums_of_foldlM (by rw [← scan_text_eq]; exact h)
  rw [parseLookKeys, h, themePaths, ← hsums.themeName]
  cases hname : st.look.themeName with
  | none =>
    cases hsaw : st.saw <;>
      simp [bind, Except.bind, pure, Except.pure, Except.map, firstTheme, hsaw, hname]
  | some name =>
    have hsaw : st.saw = true := hsums.saw (.inl (by rw [hname]; rfl))
    simp only [bind, Except.bind, hsaw, hname, Bool.not_true, Bool.false_eq_true, if_false, if_true,
      Option.elim_some, resolveTheme]
    change _ = (firstTheme (fun text => parseLookKeys fl files turns text none) files
      (candidates files name directory)).map _
    cases firstTheme (fun text => parseLookKeys fl files turns text none) files
      (candidates files name directory) <;> rfl

theorem isSome_parseLookKeys {text : List Char} {st : Scan F} (h : Scan.text fl text = .ok st)
    (theme : Option ThemeColors) (hnone : st.saw = false → theme = none) :
    ((if st.saw then some (st.finish theme) else none).bind ThemeColors.ofLook).isSome =
      (theme.isSome || givesBoth (entries text)) := by
  have hsums : Sums (entries text) st := sums_of_foldlM (by rw [← scan_text_eq]; exact h)
  cases hsaw : st.saw with
  | true => exact isSome_ofLook_finish hsums theme
  | false =>
    have hbg : gives .background (entries text) = false := by
      rw [← hsums.background, Bool.eq_false_iff]
      intro hbg
      rw [hsums.saw (.inr hbg)] at hsaw
      cases hsaw
    rw [hnone hsaw, givesBoth, hbg]
    rfl

theorem themePaths_of_not_saw {text : List Char} {st : Scan F} (h : Scan.text fl text = .ok st)
    (hsaw : st.saw = false) (directory : Option Path) : themePaths files text directory = [] := by
  have hsums : Sums (entries text) st := sums_of_foldlM (by rw [← scan_text_eq]; exact h)
  rw [themePaths, ← hsums.themeName]
  cases hname : st.look.themeName with
  | none => rfl
  | some name =>
    rw [hsums.saw (.inl (by rw [hname]; rfl))] at hsaw
    cases hsaw

/-- What the theme files are known to come to, the search through them comes to. -/
theorem search_of_firstTheme {parse : List Char → Except Stop (Option (TerminalLook F))}
    (hparse : ∀ text look, parse text = .ok look → FitsText text ∧ ∃ found,
      Search files (themePaths files text none) found ∧
        (look.bind ThemeColors.ofLook).isSome = (found || givesBoth (entries text)))
    {urls : List Path} {theme : Option ThemeColors} (h : firstTheme parse files urls = .ok theme) :
    Search files urls theme.isSome := by
  induction urls with
  | nil =>
    obtain rfl := Except.ok.inj h
    exact .nil
  | cons url urls ih =>
    rw [firstTheme] at h
    cases hurl : files.readToString url with
    | none =>
      rw [hurl] at h
      exact .unread hurl (ih h)
    | some text =>
      rw [hurl] at h
      cases hlook : parse text with
      | error stop => simp [hlook, bind, Except.bind] at h
      | ok look =>
        obtain ⟨hfits, found, hinner, hgives⟩ := hparse text look hlook
        simp only [hlook, bind, Except.bind] at h
        cases htheme : look.bind ThemeColors.ofLook with
        | none =>
          rw [htheme] at h hgives
          exact .passed hurl hfits hinner hgives.symm (ih h)
        | some colors =>
          rw [htheme] at h hgives
          obtain rfl := Except.ok.inj h
          exact .theme hurl hfits hinner hgives.symm

theorem search_of_parseLookKeys {turns : Nat} {text : List Char} {directory : Option Path}
    {look : Option (TerminalLook F)} (h : parseLookKeys fl files turns text directory = .ok look) :
    FitsText text ∧ ∃ found, Search files (themePaths files text directory) found ∧
      (look.bind ThemeColors.ofLook).isSome = (found || givesBoth (entries text)) := by
  induction turns generalizing text directory look with
  | zero => cases h
  | succ turns ih =>
    cases hst : Scan.text fl text with
    | error stop => rw [parseLookKeys, hst] at h; cases h
    | ok st =>
      rw [parseLookKeys_of_scan hst] at h
      cases htheme : firstTheme (parseTheme fl files turns) files (themePaths files text directory) with
      | error stop => rw [htheme] at h; cases h
      | ok theme =>
        rw [htheme] at h
        obtain rfl := Except.ok.inj h
        refine ⟨(scan_text_ok_iff fl text).mp ⟨st, hst⟩, theme.isSome,
          search_of_firstTheme (fun text look hlook => ih hlook) htheme, isSome_parseLookKeys hst theme ?_⟩
        intro hsaw
        rw [themePaths_of_not_saw hst hsaw] at htheme
        exact (Except.ok.inj htheme).symm

theorem parseTheme_of_inner {turns : Nat} {text : List Char} {theme : Option ThemeColors}
    (hfits : FitsText text)
    (h : firstTheme (parseTheme fl files turns) files (themePaths files text none) = .ok theme) :
    ∃ look, parseTheme fl files (turns + 1) text = .ok look ∧
      (look.bind ThemeColors.ofLook).isSome = (theme.isSome || givesBoth (entries text)) := by
  obtain ⟨st, hst⟩ := (scan_text_ok_iff fl text).mpr hfits
  refine ⟨_, by rw [parseTheme, parseLookKeys_of_scan hst, h]; rfl, isSome_parseLookKeys hst theme ?_⟩
  intro hsaw
  rw [themePaths_of_not_saw hst hsaw] at h
  exact (Except.ok.inj h).symm

/-- With turns enough the search comes to its end. -/
theorem firstTheme_of_search (fl : Floats F) {urls : List Path} {found : Bool} (h : Search files urls found) :
    ∃ enough, ∀ turns, enough ≤ turns → ∃ theme,
      firstTheme (parseTheme fl files turns) files urls = .ok theme ∧ theme.isSome = found := by
  induction h with
  | nil => exact ⟨0, fun _ _ => ⟨none, rfl, rfl⟩⟩
  | unread hurl rest ih =>
    obtain ⟨enough, ih⟩ := ih
    refine ⟨enough, fun turns hturns => ?_⟩
    rw [firstTheme, hurl]
    exact ih turns hturns
  | theme hurl hfits inner hgives ih =>
    obtain ⟨enough, ih⟩ := ih
    refine ⟨enough + 1, fun turns hturns => ?_⟩
    obtain ⟨turns, rfl⟩ := Nat.exists_eq_add_of_le' hturns
    obtain ⟨theme, htheme, rfl⟩ := ih (turns + enough) (Nat.le_add_left _ _)
    obtain ⟨look, hlook, hsome⟩ := parseTheme_of_inner hfits htheme
    rw [hgives] at hsome
    obtain ⟨colors, hcolors⟩ := Option.isSome_iff_exists.mp hsome
    exact ⟨some colors, by simp [firstTheme, hurl, ← Nat.add_assoc, hlook, bind, Except.bind, hcolors, pure,
      Except.pure], rfl⟩
  | passed hurl hfits inner hgives rest ih ihRest =>
    obtain ⟨enough, ih⟩ := ih
    obtain ⟨later, ihRest⟩ := ihRest
    refine ⟨max (enough + 1) later, fun turns hturns => ?_⟩
    obtain ⟨theme', htheme', rfl⟩ := ihRest turns (Nat.le_trans (Nat.le_max_right _ _) hturns)
    obtain ⟨turns, rfl⟩ := Nat.exists_eq_add_of_le' (Nat.le_trans (Nat.le_max_left _ _) hturns)
    obtain ⟨theme, htheme, rfl⟩ := ih (turns + enough) (Nat.le_add_left _ _)
    obtain ⟨look, hlook, hsome⟩ := parseTheme_of_inner hfits htheme
    rw [hgives, Option.isSome_eq_false_iff, Option.isNone_iff_eq_none] at hsome
    rw [← Nat.add_assoc] at htheme' ⊢
    exact ⟨theme', by simp [firstTheme, hurl, hlook, bind, Except.bind, hsome, htheme'], rfl⟩

theorem parse_ends_iff (fl : Floats F) (files : Files) (text : List Char) (directory : Option Path) :
    (∃ turns look, parseLookKeys fl files turns text directory = .ok look) ↔
      Readable files text directory := by
  constructor
  · rintro ⟨turns, look, h⟩
    obtain ⟨hfits, found, hsearch, -⟩ := search_of_parseLookKeys h
    exact ⟨hfits, found, hsearch⟩
  · rintro ⟨hfits, found, hsearch⟩
    obtain ⟨st, hst⟩ := (scan_text_ok_iff fl text).mpr hfits
    obtain ⟨enough, hends⟩ := firstTheme_of_search fl hsearch
    obtain ⟨theme, htheme, -⟩ := hends enough (Nat.le_refl _)
    exact ⟨enough + 1, _, by rw [parseLookKeys_of_scan hst, htheme]; rfl⟩

/-- No theme is found where there are no files. -/
def noFiles : Files := ⟨fun _ => none, none, none, fun _ => false⟩

def themeA : Path := utf8 "/h/.config/rill/themes/a".toList

/-- A themes directory with one theme, which names itself. -/
def selfNamed : Files where
  readToString path := if path = themeA then some "theme = a\n".toList else none
  home := some (utf8 "/h".toList)
  exeDir := none
  isDir _ := false

theorem not_search_selfNamed {urls : List Path} {found : Bool} (h : Search selfNamed urls found)
    (hurls : urls.head? = some themeA) : False := by
  have hfile : selfNamed.readToString themeA = some "theme = a\n".toList := by
    simp only [selfNamed, if_true]
  have hagain : (themePaths selfNamed "theme = a\n".toList none).head? = some themeA := by decide
  induction h with
  | nil => cases hurls
  | unread hurl rest =>
    rw [Option.some.inj hurls, hfile] at hurl
    cases hurl
  | theme hurl hfits inner hgives ih | passed hurl hfits inner hgives rest ih =>
    rw [Option.some.inj hurls, hfile] at hurl
    obtain rfl := Option.some.inj hurl
    exact ih hagain

/-- The fifth byte of a theme's name is inside a letter; and a theme that names itself is read
for ever. -/
theorem look_not_total :
    let fl : Floats Unit := ⟨fun _ => (), id⟩
    (∀ turns look, parseLookKeys fl noFiles turns "theme = Ambré clair".toList none ≠ .ok look) ∧
      ∀ turns look, parseLookKeys fl selfNamed turns "theme = a".toList none ≠ .ok look := by
  refine ⟨fun turns look h => ?_, fun turns look h => ?_⟩
  · have hmem : ("theme".toList, "Ambré clair".toList) ∈ entries "theme = Ambré clair".toList := by
      decide
    have hfits := (search_of_parseLookKeys h).1 _ hmem (by decide +kernel)
    have hcut : ¬ Boundary 5 "Ambré clair".toList := by decide
    exact hcut (hfits.dark (by decide +kernel) "Ambré clair".toList (by decide +kernel) (by decide +kernel))
  · obtain ⟨-, found, hsearch, -⟩ := search_of_parseLookKeys h
    have hfirst : (themePaths selfNamed "theme = a".toList none).head? = some themeA := by decide +kernel
    exact not_search_selfNamed hsearch hfirst

end Rill.Look
