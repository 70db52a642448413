import Rill.Lib.Table
import Rill.Lib.Text

/-!
# Settings

A settings write merges its updates into the user's one file. The format is not
this crate's: what is relied on of it is named in `TomlTables.Documented`.
-/

namespace Rill.Orchestrate

open Lib

variable {V : Type}

/-- The `toml` crate, at tables of its values `V`. -/
structure TomlTables (V : Type) where
  toStringPretty : Table String V → Option String
  fromStr : String → Option (Table String V)

/-- Tables that can be written come back with the same values, and an empty text is the empty
table. -/
structure TomlTables.Documented (toml : TomlTables V) : Prop where
  roundTrip : ∀ doc text, toml.toStringPretty doc = some text →
    ∃ back, toml.fromStr text = some back ∧ ∀ k, back.get? k = doc.get? k
  empty : ∃ doc, toml.fromStr "" = some doc ∧ ∀ k, doc.get? k = none

-- ---------------------------------------------------------------------------
-- Files
-- ---------------------------------------------------------------------------

inductive File
  | absent
  | present (bytes : List UInt8) (readable : Bool)
  deriving DecidableEq

/-- How a write ends: as it should, before the file is touched, or after so many bytes. -/
inductive WriteEnd
  | done
  | refused
  | cut (n : Nat)

namespace File

def readToString : File → Option String
  | present bytes true => fromUtf8 bytes
  | _ => none

def replaced (bytes : List UInt8) : File → File
  | absent => present bytes true
  | present _ readable => present bytes readable

/-- The file is emptied when it has been opened, and then written. -/
def write (ends : WriteEnd) (text : String) (file : File) : Except Unit Unit × File :=
  match ends with
  | .done => (.ok (), file.replaced (asBytes text))
  | .refused => (.error (), file)
  | .cut n => (.error (), file.replaced ((asBytes text).take n))

end File

def writeUserConfig (toml : TomlTables V) (ends : WriteEnd) (updates : Table String V) (file : File) :
    Except Unit Unit × File :=
  let existing := file.readToString.getD ""
  let doc := (toml.fromStr existing).getD .empty
  let doc := updates.entries.foldl (fun doc e => doc.put e.1 e.2) doc
  match toml.toStringPretty doc with
  | none => (.error (), file)
  | some text => file.write ends text

-- ---------------------------------------------------------------------------
-- What a settings write is for
-- ---------------------------------------------------------------------------

/-- The user's settings: none where there is no file, and unknown where it cannot be read or
parsed. -/
def File.table? (toml : TomlTables V) : File → Option (Table String V)
  | absent => some .empty
  | file => file.readToString.bind toml.fromStr

/-- The updates and, of the other keys, what `old` has. -/
def Merged (updates old new : Table String V) : Prop := ∀ k, new.get? k = (updates.get? k).or (old.get? k)

/-- The file then has the user's settings with the updates. -/
def File.Updated (toml : TomlTables V) (updates : Table String V) (file after : File) : Prop :=
  ∃ old new, file.table? toml = some old ∧ after.table? toml = some new ∧ Merged updates old new

/-- An error and the file as it was, or the settings with the updates. -/
def Saved (toml : TomlTables V) (updates : Table String V) (file : File)
    (outcome : Except Unit Unit × File) : Prop :=
  (outcome.1 = .error () ∧ outcome.2 = file) ∨ file.Updated toml updates outcome.2

def mergedTable (toml : TomlTables V) (updates : Table String V) (file : File) : Table String V :=
  updates.entries.foldl (fun doc e => doc.put e.1 e.2)
    ((toml.fromStr (file.readToString.getD "")).getD .empty)

def File.bytes? : File → Option (List UInt8)
  | absent => none
  | present bytes _ => some bytes

/-- The bytes are a text that parses to `doc`. -/
def ReadsAs (toml : TomlTables V) (bytes : List UInt8) (doc : Table String V) : Prop :=
  ∃ new, (fromUtf8 bytes).bind toml.fromStr = some new ∧ ∀ k, new.get? k = doc.get? k

/-- The file is not touched, or its settings are known and the text is written, as far as it
counts. A write that is cut short can also leave the very bytes that were there. -/
def Spares (toml : TomlTables V) (ends : WriteEnd) (updates : Table String V) (file : File) : Prop :=
  match toml.toStringPretty (mergedTable toml updates file), ends with
  | none, _ | some _, .refused => True
  | some _, .done => (file.table? toml).isSome = true
  | some text, .cut n =>
    let left := (asBytes text).take n
    file.bytes? = some left ∨
      ((file.table? toml).isSome = true ∧ ReadsAs toml left (mergedTable toml updates file))

variable {toml : TomlTables V} {updates old : Table String V} {file : File}

theorem get?_mergedTable (toml : TomlTables V) (updates : Table String V) (file : File) (k : String) :
    (mergedTable toml updates file).get? k =
      (updates.get? k).or (((toml.fromStr (file.readToString.getD "")).getD .empty).get? k) := by
  rw [mergedTable, Table.get?_foldl_put updates.nodup]
  change (updates.get? k <|> _) = _
  cases updates.get? k <;> rfl

theorem merged_mergedTable (htoml : toml.Documented) (h : file.table? toml = some old) :
    Merged updates old (mergedTable toml updates file) := by
  intro k
  rw [get?_mergedTable]
  cases file with
  | absent =>
    obtain rfl := Option.some.inj h
    obtain ⟨doc, hdoc, hnone⟩ := htoml.empty
    have hread : toml.fromStr (File.absent.readToString.getD "") = some doc := hdoc
    rw [hread, Option.getD_some, hnone]
    rfl
  | present bytes readable =>
    obtain ⟨text, htext, hold⟩ := Option.bind_eq_some_iff.mp h
    rw [htext, Option.getD_some, hold, Option.getD_some]

theorem table?_replaced (h : file.table? toml = some old) (bytes : List UInt8) :
    (file.replaced bytes).table? toml = (fromUtf8 bytes).bind toml.fromStr := by
  cases file with
  | absent => rfl
  | present was readable =>
    cases readable with
    | true => rfl
    | false => cases h

theorem replaced_eq_iff (file : File) (bytes : List UInt8) :
    file.replaced bytes = file ↔ file.bytes? = some bytes := by
  cases file with
  | absent => exact iff_of_false nofun nofun
  | present was readable =>
    simp only [File.replaced, File.bytes?, File.present.injEq, and_true, Option.some.injEq]
    exact eq_comm

/-- The settings have their updates where they were known and the bytes read as the two merged. -/
theorem updated_replaced_iff (htoml : toml.Documented) (bytes : List UInt8) :
    file.Updated toml updates (file.replaced bytes) ↔
      (file.table? toml).isSome = true ∧ ReadsAs toml bytes (mergedTable toml updates file) := by
  constructor
  · rintro ⟨old, new, hold, hnew, hmerged⟩
    rw [table?_replaced hold] at hnew
    refine ⟨Option.isSome_iff_exists.mpr ⟨old, hold⟩, new, hnew, fun k => ?_⟩
    rw [hmerged k, merged_mergedTable htoml hold k]
  · rintro ⟨hknown, new, hnew, hsame⟩
    obtain ⟨old, hold⟩ := Option.isSome_iff_exists.mp hknown
    refine ⟨old, new, hold, (table?_replaced hold bytes).trans hnew, fun k => ?_⟩
    rw [hsame k, merged_mergedTable htoml hold k]

theorem readsAs_asBytes (htoml : toml.Documented) {doc : Table String V} {text : String}
    (h : toml.toStringPretty doc = some text) : ReadsAs toml (asBytes text) doc := by
  rw [ReadsAs, fromUtf8_asBytes, Option.bind_some]
  exact htoml.roundTrip doc text h

/-- A settings write keeps the user's settings just if it spares them. -/
theorem saved_iff (htoml : toml.Documented) (ends : WriteEnd) (updates : Table String V) (file : File) :
    Saved toml updates file (writeUserConfig toml ends updates file) ↔ Spares toml ends updates file := by
  have hwrite : writeUserConfig toml ends updates file =
      match toml.toStringPretty (mergedTable toml updates file) with
      | none => (.error (), file)
      | some text => file.write ends text := rfl
  rw [hwrite]
  unfold Spares
  cases htext : toml.toStringPretty (mergedTable toml updates file) with
  | none => exact iff_of_true (.inl ⟨rfl, rfl⟩) trivial
  | some text =>
    cases ends with
    | refused => exact iff_of_true (.inl ⟨rfl, rfl⟩) trivial
    | cut n =>
      have herror : (file.write (.cut n) text).1 = .error () := rfl
      exact or_congr ((and_iff_right herror).trans (replaced_eq_iff file _))
        (updated_replaced_iff htoml _)
    | done =>
      have hok : ¬ ((file.write .done text).1 = .error () ∧ (file.write .done text).2 = file) :=
        fun h => nomatch h.1
      have hreads := readsAs_asBytes htoml htext
      exact (or_iff_right hok).trans ((updated_replaced_iff htoml _).trans (and_iff_left hreads))

/-- The tables of a font and a theme, as the format writes them. -/
def settingsPages : List (List (String × String) × String) :=
  [([], ""), ([("theme", "dark")], "theme = \"dark\"\n"),
    ([("font-family", "Menlo")], "font-family = \"Menlo\"\n"),
    ([("font-family", "Menlo"), ("theme", "dark")], "font-family = \"Menlo\"\ntheme = \"dark\"\n")]

/-- The format as far as these tables go. -/
def twoSettings : TomlTables String where
  toStringPretty doc := (settingsPages.find? fun page => page.1 = doc.entries).map (·.2)
  fromStr text := (settingsPages.find? fun page => page.2 = text).map fun page => .ofList page.1

theorem twoSettings_documented : twoSettings.Documented where
  roundTrip doc text h := by
    have hpages : ∀ page ∈ settingsPages,
        (twoSettings.fromStr page.2).map Table.entries = some page.1 := by decide
    obtain ⟨page, hfind, rfl⟩ := Option.map_eq_some_iff.mp h
    obtain ⟨back, hread, hback⟩ :=
      Option.map_eq_some_iff.mp (hpages page (List.mem_of_find?_eq_some hfind))
    have hentries : page.1 = doc.entries := by simpa using List.find?_some hfind
    refine ⟨back, hread, fun k => ?_⟩
    rw [Table.get?, Table.get?, hback, hentries]
  empty := ⟨.empty, rfl, fun _ => rfl⟩

/-- A theme for a user who has chosen a font. -/
theorem saved_iff_font :
    let updates : Table String String := .ofList [("theme", "dark")]
    let file : File := .present (asBytes "font-family = \"Menlo\"\n") true
    let outcome := writeUserConfig twoSettings .done updates file
    outcome = (.ok (), .present (asBytes "font-family = \"Menlo\"\ntheme = \"dark\"\n") true) ∧
      Saved twoSettings updates file outcome :=
  ⟨by decide, (saved_iff twoSettings_documented .done _ _).mpr rfl⟩

/-- A file that does not parse is replaced by the updates alone. -/
theorem broken_file_replaced :
    let updates : Table String String := .ofList [("theme", "dark")]
    let file : File := .present (asBytes "font-family = Menlo\n") true
    writeUserConfig twoSettings .done updates file =
        (.ok (), .present (asBytes "theme = \"dark\"\n") true) ∧
      ¬ ∀ ends updates file, Saved twoSettings updates file (writeUserConfig twoSettings ends updates file) := by
  intro updates file
  have hrun : writeUserConfig twoSettings .done updates file =
      (.ok (), .present (asBytes "theme = \"dark\"\n") true) := by decide
  refine ⟨hrun, fun h => ?_⟩
  obtain ⟨herror, -⟩ | ⟨old, new, hold, -⟩ := h .done updates file
  · rw [hrun] at herror
    cases herror
  · have hnone : file.table? twoSettings = none := by decide
    rw [hnone] at hold
    cases hold

end Rill.Orchestrate
