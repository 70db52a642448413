import Mathlib.Algebra.GroupWithZero.Nat
import Mathlib.Logic.Encodable.Basic
import Mathlib.Logic.Equiv.List
import Rill.Orchestrate.Task

/-!
# Tasks kept

A task and its queue written down and read back. The document format is not
this crate's: what is relied on of it is named in `Toml.Documented`.
-/

namespace Rill.Orchestrate

open Lib

structure SectionEntry where
  index : Nat
  kind : String
  content : String
  closed : Bool
  deriving DecidableEq, Repr

structure DecisionEntry where
  sectionIndex : Nat
  decision : String
  actor : String
  atUnixMs : UInt64
  deriving DecidableEq, Repr

structure SnapshotDoc where
  id : UInt64
  nextIndex : Nat
  sections : List SectionEntry
  decisions : List DecisionEntry
  queue : List String
  deriving DecidableEq, Repr

def decisionToStr : ApprovalDecision → String
  | .approved => "approved"
  | .rejected => "rejected"
  | .cancelled => "cancelled"

def decisionFromStr (s : String) : ApprovalDecision :=
  match s with
  | "approved" => .approved
  | "rejected" => .rejected
  | _ => .cancelled

@[simp] theorem decisionFromStr_toStr (d : ApprovalDecision) : decisionFromStr (decisionToStr d) = d := by
  cases d <;> rfl

-- ---------------------------------------------------------------------------
-- The format
-- ---------------------------------------------------------------------------

/-- The `toml` crate, at this document type. -/
structure Toml where
  toStringPretty : SnapshotDoc → Option String
  fromStr : String → Option SnapshotDoc

/-- The integers of the format are signed, of 64 bits. -/
def i64Bound : Nat := 2 ^ 63

namespace SnapshotDoc

def Fits (doc : SnapshotDoc) : Prop :=
  doc.id.toNat < i64Bound ∧ doc.nextIndex < i64Bound ∧ (∀ e ∈ doc.sections, e.index < i64Bound) ∧
    ∀ e ∈ doc.decisions, e.sectionIndex < i64Bound ∧ e.atUnixMs.toNat < i64Bound

instance (doc : SnapshotDoc) : Decidable doc.Fits :=
  inferInstanceAs (Decidable (_ ∧ _ ∧ _ ∧ _))

end SnapshotDoc

/-- Documents whose integers fit come back as they were, others are an error; and a text without
the required keys is no document. -/
structure Toml.Documented (toml : Toml) : Prop where
  roundTrip : ∀ doc : SnapshotDoc, doc.Fits →
    ∃ text, toml.toStringPretty doc = some text ∧ toml.fromStr text = some doc
  tooLarge : ∀ doc : SnapshotDoc, ¬ doc.Fits → toml.toStringPretty doc = none
  empty : toml.fromStr "" = none

-- ---------------------------------------------------------------------------
-- Both directions
-- ---------------------------------------------------------------------------

/-- `order` is the order in which the walk over the decisions meets them. -/
def snapshotDoc (t : Task) (q : PromptQueue) (order : List (Nat × Decision)) : SnapshotDoc where
  id := t.id.val
  nextIndex := t.nextIndex
  sections := t.sections.map fun s => ⟨s.index, s.kind.asStr, s.content, s.closed⟩
  decisions := order.map fun e => ⟨e.1, decisionToStr e.2.decision, e.2.actor, e.2.atUnixMs⟩
  queue := q.items

def persistTaskAndQueue (toml : Toml) (t : Task) (q : PromptQueue) (order : List (Nat × Decision)) :
    String :=
  (toml.toStringPretty (snapshotDoc t q order)).getD ""

def restoreTaskAndQueue (toml : Toml) (id : TaskId) (text : String) : Task × PromptQueue :=
  let doc := (toml.fromStr text).getD ⟨id.val, 0, [], [], []⟩
  ({ id := ⟨doc.id⟩
     nextIndex := doc.nextIndex
     sections := doc.sections.map fun e => ⟨e.index, .fromTag e.kind, e.content, e.closed⟩
     decisions := .ofList (doc.decisions.map fun e =>
      (e.sectionIndex, ⟨decisionFromStr e.decision, e.actor, e.atUnixMs⟩)) },
   doc.queue.foldl PromptQueue.push .new)

-- ---------------------------------------------------------------------------
-- What comes back
-- ---------------------------------------------------------------------------

/-- One task, but for the order in which its decisions are kept. -/
structure Task.Same (t t' : Task) : Prop where
  id : t'.id = t.id
  nextIndex : t'.nextIndex = t.nextIndex
  sections : t'.sections = t.sections
  decisions : ∀ i, t'.decisionFor i = t.decisionFor i

structure Task.Fits (t : Task) : Prop where
  id : t.id.val.toNat < i64Bound
  nextIndex : t.nextIndex < i64Bound
  sections : ∀ s ∈ t.sections, s.index < i64Bound
  decisions : ∀ i d, t.decisionFor i = some d → i < i64Bound ∧ d.atUnixMs.toNat < i64Bound

structure Task.Blank (t : Task) : Prop where
  nextIndex : t.nextIndex = 0
  sections : t.sections = []
  decisions : ∀ i, t.decisionFor i = none

section
variable {t : Task} {q : PromptQueue} {order : List (Nat × Decision)}

theorem foldl_push (prompts : List String) (q : PromptQueue) :
    prompts.foldl PromptQueue.push q = ⟨q.items ++ prompts⟩ := by
  induction prompts generalizing q with
  | nil => simp
  | cons p prompts ih => simp [ih, PromptQueue.push]

theorem fits_snapshotDoc (horder : order.Perm t.decisions.entries) :
    (snapshotDoc t q order).Fits ↔ t.Fits := by
  have hdecisions : (∀ e ∈ (snapshotDoc t q order).decisions,
      e.sectionIndex < i64Bound ∧ e.atUnixMs.toNat < i64Bound) ↔
      ∀ i d, t.decisionFor i = some d → i < i64Bound ∧ d.atUnixMs.toNat < i64Bound := by
    simp only [snapshotDoc, List.forall_mem_map]
    constructor
    · intro h i d hd
      obtain ⟨e, hfind, hed⟩ := Option.map_eq_some_iff.mp hd
      obtain rfl : e.1 = i := by simpa using List.find?_some hfind
      exact hed ▸ h e (horder.mem_iff.mpr (List.mem_of_find?_eq_some hfind))
    · intro h e he
      exact h e.1 e.2 (t.decisions.get?_of_mem (horder.mem_iff.mp he))
  constructor
  · rintro ⟨hid, hnext, hsections, hall⟩
    exact ⟨hid, hnext, by simpa [snapshotDoc] using hsections, hdecisions.mp hall⟩
  · rintro ⟨hid, hnext, hsections, hall⟩
    exact ⟨hid, hnext, by simpa [snapshotDoc] using hsections, hdecisions.mpr hall⟩

theorem restore_snapshotDoc {toml : Toml} {text : String} (id : TaskId)
    (horder : order.Perm t.decisions.entries)
    (hread : toml.fromStr text = some (snapshotDoc t q order)) :
    Task.Same t (restoreTaskAndQueue toml id text).1 ∧ (restoreTaskAndQueue toml id text).2 = q := by
  have hsections : (snapshotDoc t q order).sections.map (fun e =>
      (⟨e.index, .fromTag e.kind, e.content, e.closed⟩ : Section)) = t.sections := by
    simp [snapshotDoc, Function.comp_def]
  have horder' : (snapshotDoc t q order).decisions.map (fun e =>
      (e.sectionIndex, (⟨decisionFromStr e.decision, e.actor, e.atUnixMs⟩ : Decision))) = order := by
    simp [snapshotDoc, Function.comp_def]
  rw [restoreTaskAndQueue, hread]
  dsimp only [Option.getD_some]
  refine ⟨⟨rfl, rfl, hsections, fun i => ?_⟩, ?_⟩
  · rw [horder']
    exact t.decisions.get?_ofList_perm horder i
  · rw [foldl_push]
    rfl

theorem restore_persist_of_fits {toml : Toml} (htoml : toml.Documented) {t : Task} (hfits : t.Fits)
    (q : PromptQueue) (id : TaskId) (horder : order.Perm t.decisions.entries) :
    Task.Same t (restoreTaskAndQueue toml id (persistTaskAndQueue toml t q order)).1 ∧
      (restoreTaskAndQueue toml id (persistTaskAndQueue toml t q order)).2 = q := by
  obtain ⟨text, hwrite, hread⟩ := htoml.roundTrip _ ((fits_snapshotDoc (q := q) horder).mpr hfits)
  rw [persistTaskAndQueue, hwrite]
  exact restore_snapshotDoc id horder hread

/-- Where nothing was written a new task comes back. -/
theorem restore_empty {toml : Toml} (id : TaskId) (hempty : toml.fromStr "" = none) :
    restoreTaskAndQueue toml id "" = (Task.new id, .new) := by
  rw [restoreTaskAndQueue, hempty]
  rfl

theorem same_new_iff (t : Task) (id : TaskId) : Task.Same t (.new id) ↔ t.Blank ∧ t.id = id := by
  constructor
  · rintro ⟨hid, hnext, hsections, hdecisions⟩
    exact ⟨⟨hnext.symm, hsections.symm, fun i => (hdecisions i).symm⟩, hid.symm⟩
  · rintro ⟨⟨hnext, hsections, hdecisions⟩, rfl⟩
    exact ⟨rfl, hnext.symm, hsections.symm, fun i => (hdecisions i).symm⟩

/-- What was persisted comes back exactly when all the integers of the task are below `2 ^ 63`, or
there was nothing to lose. -/
theorem restore_persist_iff {toml : Toml} (htoml : toml.Documented) (t : Task) (q : PromptQueue)
    (id : TaskId) (horder : order.Perm t.decisions.entries) :
    (Task.Same t (restoreTaskAndQueue toml id (persistTaskAndQueue toml t q order)).1 ∧
        (restoreTaskAndQueue toml id (persistTaskAndQueue toml t q order)).2 = q) ↔
      t.Fits ∨ (t.Blank ∧ t.id = id) ∧ q = .new := by
  by_cases hfits : t.Fits
  · exact iff_of_true (restore_persist_of_fits htoml hfits q id horder) (.inl hfits)
  · have hlost := htoml.tooLarge _ (mt (fits_snapshotDoc (q := q) horder).mp hfits)
    rw [persistTaskAndQueue, hlost, Option.getD_none, restore_empty id htoml.empty, same_new_iff,
      or_iff_right hfits]
    exact and_congr_right' ⟨Eq.symm, Eq.symm⟩

end

-- ---------------------------------------------------------------------------
-- One format
-- ---------------------------------------------------------------------------

instance encodableUInt64 : Encodable UInt64 := .ofLeftInverse UInt64.toNat UInt64.ofNat fun n => by simp

instance encodableString : Encodable String :=
  .ofLeftInverse (fun s => s.toList.map Char.toNat) (fun l => .ofList (l.map Char.ofNat)) fun s => by
    simp [Function.comp_def]

def SectionEntry.parts (e : SectionEntry) : Nat × String × String × Bool :=
  (e.index, e.kind, e.content, e.closed)

instance : Encodable SectionEntry :=
  .ofLeftInverse SectionEntry.parts (fun p => ⟨p.1, p.2.1, p.2.2.1, p.2.2.2⟩) fun _ => rfl

def DecisionEntry.parts (e : DecisionEntry) : Nat × String × String × UInt64 :=
  (e.sectionIndex, e.decision, e.actor, e.atUnixMs)

instance : Encodable DecisionEntry :=
  .ofLeftInverse DecisionEntry.parts (fun p => ⟨p.1, p.2.1, p.2.2.1, p.2.2.2⟩) fun _ => rfl

def SnapshotDoc.parts (doc : SnapshotDoc) :
    UInt64 × Nat × List SectionEntry × List DecisionEntry × List String :=
  (doc.id, doc.nextIndex, doc.sections, doc.decisions, doc.queue)

instance : Encodable SnapshotDoc :=
  .ofLeftInverse SnapshotDoc.parts (fun p => ⟨p.1, p.2.1, p.2.2.1, p.2.2.2.1, p.2.2.2.2⟩) fun _ => rfl

def keptTask : Task := (Task.new ⟨7⟩).push .prompt "do the thing"

/-- As many strokes as the number of the document says. -/
def strokes (doc : SnapshotDoc) : String := .ofList (List.replicate (Encodable.encode doc + 1) '#')

/-- A document as the format writes it. -/
structure Page where
  doc : SnapshotDoc
  text : String
  fits : doc.Fits
  starts : text.toList.head? = some 'i'

/-- The format at one document, and any text at the others. -/
def formatAt (page : Page) : Toml where
  toStringPretty doc :=
    if doc = page.doc then some page.text else if doc.Fits then some (strokes doc) else none
  fromStr text :=
    if text = page.text then some page.doc
    else match text.length with
      | 0 => none
      | n + 1 => Encodable.decode n

theorem toStringPretty_formatAt (page : Page) :
    (formatAt page).toStringPretty page.doc = some page.text := if_pos rfl

theorem strokes_ne_text (doc : SnapshotDoc) (page : Page) : strokes doc ≠ page.text := by
  intro h
  have hhead := congrArg (fun s : String => s.toList.head?) h
  have hstroke : (strokes doc).toList.head? = some '#' := by simp [strokes, List.replicate_succ]
  rw [hstroke, page.starts] at hhead
  cases hhead

theorem documented_formatAt (page : Page) : (formatAt page).Documented where
  roundTrip doc hfits := by
    by_cases hpage : doc = page.doc
    · exact ⟨page.text, by simp [formatAt, hpage], by simp [formatAt, hpage]⟩
    · refine ⟨strokes doc, by simp [formatAt, hpage, hfits], ?_⟩
      have hlength : (strokes doc).length = Encodable.encode doc + 1 := by
        simp [strokes, ← String.length_toList]
      simp [formatAt, strokes_ne_text, hlength]
  tooLarge doc hfits := by
    have hpage : doc ≠ page.doc := by
      rintro rfl
      exact hfits page.fits
    simp [formatAt, hpage, hfits]
  empty := by
    have hne : "" ≠ page.text := by
      intro h
      have hstarts := page.starts
      rw [← h] at hstarts
      cases hstarts
    simp [formatAt, hne]

def keptPage : Page where
  doc := snapshotDoc keptTask ⟨["next step"]⟩ []
  text := "id = 7\n" ++ ("next_index = 1\ndecision = []\nqueue = [\"next step\"]\n\n" ++
    "[[section]]\nindex = 0\nkind = \"prompt\"\ncontent = \"do the thing\"\nclosed = false\n")
  fits := by decide
  starts := by
    rw [String.toList_append]
    rfl

def tally : Toml := formatAt keptPage

theorem documented_tally : tally.Documented := documented_formatAt keptPage

/-- One section and one prompt come back. -/
theorem restore_persist_kept :
    Task.Same keptTask (restoreTaskAndQueue tally ⟨7⟩
        (persistTaskAndQueue tally keptTask ⟨["next step"]⟩ [])).1 ∧
      (restoreTaskAndQueue tally ⟨7⟩ (persistTaskAndQueue tally keptTask ⟨["next step"]⟩ [])).2 =
        ⟨["next step"]⟩ :=
  (restore_persist_iff documented_tally keptTask ⟨["next step"]⟩ ⟨7⟩ (.refl _)).mpr <| .inl
    ⟨by decide, by decide, by decide, fun _ _ => nofun⟩

/-- An approval decided `2 ^ 63` milliseconds after 1970. -/
def lateTask : Task :=
  ((Task.new ⟨7⟩).push .approval "sure?").decided 0 ⟨.approved, "user", 9223372036854775808⟩

/-- The time does not fit, and the whole task is gone with its queue. -/
theorem restore_persist_late :
    ¬ Task.Same lateTask (restoreTaskAndQueue tally ⟨7⟩
        (persistTaskAndQueue tally lateTask ⟨["next step"]⟩ lateTask.decisions.entries)).1 ∧
      (restoreTaskAndQueue tally ⟨7⟩
        (persistTaskAndQueue tally lateTask ⟨["next step"]⟩ lateTask.decisions.entries)).1.sections = [] ∧
      (restoreTaskAndQueue tally ⟨7⟩
        (persistTaskAndQueue tally lateTask ⟨["next step"]⟩ lateTask.decisions.entries)).2 = .new := by
  have hlost : tally.toStringPretty (snapshotDoc lateTask ⟨["next step"]⟩ lateTask.decisions.entries) =
      none := documented_tally.tooLarge _ (by decide)
  rw [persistTaskAndQueue, hlost, Option.getD_none, restore_empty _ documented_tally.empty]
  refine ⟨fun h => ?_, rfl, rfl⟩
  have hsections := h.sections
  simp [lateTask, Task.decided, Task.modifySection, Task.push, Task.new] at hsections

end Rill.Orchestrate
