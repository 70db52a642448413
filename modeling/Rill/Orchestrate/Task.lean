import Rill.Lib.Op
import Rill.Lib.Table
import Rill.Lib.Text

/-!
# Tasks

The agent runtime object: sections in order, the decisions on those that ask
for one, the prompts queued behind them, and the adapter that replays a
recorded transcript.
-/

namespace Rill.Orchestrate

open Lib

structure TaskId where
  val : UInt64
  deriving DecidableEq, Repr

inductive SectionKind
  | prompt
  | plan
  | tool
  | command
  | output
  | approval
  | diff
  | result
  | question
  deriving DecidableEq, Repr

namespace SectionKind

/-- A tag that no kind has becomes `output`. -/
def fromTag (tag : String) : SectionKind :=
  match tag with
  | "prompt" => prompt
  | "plan" => plan
  | "tool" => tool
  | "command" => command
  | "output" => output
  | "approval" => approval
  | "diff" => diff
  | "result" => result
  | "question" => question
  | _ => output

def asStr : SectionKind → String
  | prompt => "prompt"
  | plan => "plan"
  | tool => "tool"
  | command => "command"
  | output => "output"
  | approval => "approval"
  | diff => "diff"
  | result => "result"
  | question => "question"

/-- The kinds that wait for the user. -/
def asks : SectionKind → Bool
  | approval | question => true
  | _ => false

@[simp] theorem fromTag_asStr (kind : SectionKind) : fromTag kind.asStr = kind := by
  cases kind <;> rfl

theorem asks_iff (kind : SectionKind) : kind.asks = true ↔ kind = approval ∨ kind = question := by
  cases kind <;> simp [asks]

end SectionKind

structure Section where
  index : Nat
  kind : SectionKind
  content : String
  closed : Bool
  deriving DecidableEq, Repr

inductive TaskError
  | unknownSection
  | sectionClosed
  | stillBlocked
  | notAnApproval
  | notAQuestion
  deriving DecidableEq, Repr

inductive ApprovalDecision
  | approved
  | rejected
  | cancelled
  deriving DecidableEq, Repr

structure Decision where
  decision : ApprovalDecision
  actor : String
  atUnixMs : UInt64
  deriving DecidableEq, Repr

structure Task where
  id : TaskId
  nextIndex : Nat
  sections : List Section
  decisions : Table Nat Decision

-- ---------------------------------------------------------------------------
-- Answers in the text
-- ---------------------------------------------------------------------------

/-- What the text of an answer to question `index` starts with. -/
def marker (index : Nat) : String := "[answers #" ++ toString index ++ "]"

def startsWith (content mark : String) : Bool := mark.toList.isPrefixOf content.toList

/-- The text under which an answer is appended. -/
def answerText (index : Nat) (answer : String) : String :=
  "[answers #" ++ toString index ++ "] " ++ answer

theorem startsWith_iff {content mark : String} :
    startsWith content mark = true ↔ mark.toList <+: content.toList :=
  List.isPrefixOf_iff_prefix

/-- The text of an answer carries the marker of its own question, and of no other. -/
theorem startsWith_answerText (q i : Nat) (answer : String) :
    startsWith (answerText q answer) (marker i) = true ↔ q = i := by
  have hmark : (marker i).toList = "[answers #".toList ++ ((toString i).toList ++ [']']) := by
    simp [marker]
  have htext : (answerText q answer).toList =
      "[answers #".toList ++ ((toString q).toList ++ ']' :: ' ' :: answer.toList) := by
    simp [answerText]
  rw [startsWith_iff, hmark, htext, List.prefix_append_right_inj]
  constructor
  · intro h
    have hdigits := eq_of_stop_prefix (not_mem_digits (by decide) i) (not_mem_digits (by decide) q) h
    exact (repr_inj.mp (String.toList_inj.mp hdigits)).symm
  · rintro rfl
    exact ⟨' ' :: answer.toList, by simp⟩

-- ---------------------------------------------------------------------------
-- A task
-- ---------------------------------------------------------------------------

namespace Task

def new (id : TaskId) : Task := ⟨id, 0, [], .empty⟩

def section? (t : Task) (index : Nat) : Option Section := t.sections.find? fun s => s.index = index

def modifySection (t : Task) (index : Nat) (f : Section → Section) : Task :=
  { t with sections := t.sections.modify (t.sections.findIdx fun s => s.index = index) f }

def push (t : Task) (kind : SectionKind) (content : String) : Task :=
  { t with
    nextIndex := t.nextIndex + 1
    sections := t.sections ++ [⟨t.nextIndex, kind, content, false⟩] }

def append (kind : SectionKind) (content : String) : Op Task TaskError Nat := do
  let t ← get
  set (t.push kind content)
  pure t.nextIndex

def close (index : Nat) : Op Task TaskError Unit := do
  match (← get).section? index with
  | none => throw .unknownSection
  | some _ => modify fun t => t.modifySection index fun s => { s with closed := true }

def mutateContent (index : Nat) (content : String) : Op Task TaskError Unit := do
  match (← get).section? index with
  | none => throw .unknownSection
  | some s =>
    if s.closed then throw .sectionClosed
    modify fun t => t.modifySection index fun s => { s with content }

def hasAnswer (t : Task) (question : Nat) : Bool :=
  t.sections.any fun s => startsWith s.content (marker question)

def decisionFor (t : Task) (index : Nat) : Option Decision := t.decisions.get? index

def newest (t : Task) : Option Section := t.sections.reverse.find? fun s => s.kind.asks

/-- The section still waits for the user. -/
def pending (t : Task) (s : Section) : Bool :=
  match s.kind with
  | .approval => (t.decisionFor s.index).isNone
  | .question => !t.hasAnswer s.index
  | _ => false

def isBlocked (t : Task) : Bool := t.newest.any t.pending

def decide (index : Nat) (decision : ApprovalDecision) (actor : String) (atUnixMs : UInt64) :
    Op Task TaskError Unit := do
  match (← get).section? index with
  | none => throw .unknownSection
  | some s =>
    if s.kind ≠ .approval then throw .notAnApproval
    modify fun t => { t with decisions := t.decisions.put index ⟨decision, actor, atUnixMs⟩ }
    close index

def answer (question : Nat) (text : String) : Op Task TaskError Nat := do
  match (← get).section? question with
  | none => throw .unknownSection
  | some s =>
    if s.kind ≠ .question then throw .notAQuestion
    let index ← append .result (answerText question text)
    close question
    pure index

/-- The sections up to the cut, and the decisions on them. -/
def fork (t : Task) (newId : TaskId) (upTo : Nat) : Task where
  id := newId
  nextIndex := ((t.sections.filter fun s => s.index ≤ upTo).getLast?.map fun s => s.index + 1).getD 0
  sections := t.sections.filter fun s => s.index ≤ upTo
  decisions := t.decisions.restrict fun index => index ≤ upTo

end Task

-- ---------------------------------------------------------------------------
-- The prompts behind it
-- ---------------------------------------------------------------------------

structure PromptQueue where
  items : List String
  deriving DecidableEq, Repr

namespace PromptQueue

def new : PromptQueue := ⟨[]⟩

def push (q : PromptQueue) (prompt : String) : PromptQueue := ⟨q.items ++ [prompt]⟩

def trySend (t : Task) : Op PromptQueue TaskError (Option String) := do
  if t.isBlocked then throw .stillBlocked
  let q ← get
  set (⟨q.items.tail⟩ : PromptQueue)
  pure q.items.head?

end PromptQueue

-- ---------------------------------------------------------------------------
-- The replay adapter
-- ---------------------------------------------------------------------------

structure ReplayEvent where
  tag : String
  content : String
  deriving DecidableEq, Repr

structure ReplayAdapter where
  events : List ReplayEvent
  deriving DecidableEq, Repr

namespace ReplayAdapter

def driveLoop (n : Nat) : List ReplayEvent → Task → Nat × Task
  | [], t => (n, t)
  | e :: events, t => driveLoop (n + 1) events (t.push (.fromTag e.tag) e.content)

/-- Every event becomes a section; how many there were. -/
def drive (a : ReplayAdapter) (t : Task) : Nat × ReplayAdapter × Task :=
  let (n, t) := driveLoop 0 a.events t
  (n, ⟨[]⟩, t)

end ReplayAdapter

-- ---------------------------------------------------------------------------
-- What each call does
-- ---------------------------------------------------------------------------

inductive Call
  | append (kind : SectionKind) (content : String)
  | mutateContent (index : Nat) (content : String)
  | decide (index : Nat) (decision : ApprovalDecision) (actor : String) (atUnixMs : UInt64)
  | answer (question : Nat) (text : String)
  deriving DecidableEq, Repr

namespace Call

/-- The call, with the index that some of them answer left out. -/
def run : Call → Op Task TaskError Unit
  | append kind content => do
    let _ ← Task.append kind content
    pure ()
  | mutateContent index content => Task.mutateContent index content
  | decide index decision actor atUnixMs => Task.decide index decision actor atUnixMs
  | answer question text => do
    let _ ← Task.answer question text
    pure ()

def next (t : Task) (call : Call) : Task := (call.run.exec t).2

end Call

namespace Task

variable {t : Task}

theorem getElem?_findIdx {index : Nat} {s : Section} (h : t.section? index = some s) :
    t.sections[t.sections.findIdx fun s => s.index = index]? = some s := by
  rw [← List.find?_eq_getElem?_findIdx]
  exact h

@[simp] theorem exec_append (t : Task) (kind : SectionKind) (content : String) :
    (append kind content).exec t = (.ok t.nextIndex, t.push kind content) := rfl

theorem exec_close {index : Nat} {s : Section} (h : t.section? index = some s) :
    (close index).exec t =
      (.ok (), t.modifySection index fun s => { s with closed := true }) := by
  rw [close, Op.exec_get_bind, h]
  rfl

theorem exec_mutateContent (t : Task) (index : Nat) (content : String) :
    (mutateContent index content).exec t =
      match t.section? index with
      | none => (.error .unknownSection, t)
      | some s =>
        if s.closed then (.error .sectionClosed, t)
        else (.ok (), t.modifySection index fun s => { s with content }) := by
  rw [mutateContent, Op.exec_get_bind]
  cases t.section? index with
  | none => rfl
  | some s =>
    cases hclosed : s.closed with
    | true => simp [hclosed]
    | false => simp [hclosed]

def decided (t : Task) (index : Nat) (d : Decision) : Task :=
  { t with decisions := t.decisions.put index d }.modifySection index fun s => { s with closed := true }

theorem exec_decide (t : Task) (index : Nat) (decision : ApprovalDecision) (actor : String)
    (atUnixMs : UInt64) :
    (Task.decide index decision actor atUnixMs).exec t =
      match t.section? index with
      | none => (.error .unknownSection, t)
      | some s =>
        if s.kind = .approval then (.ok (), t.decided index ⟨decision, actor, atUnixMs⟩)
        else (.error .notAnApproval, t) := by
  rw [Task.decide, Op.exec_get_bind]
  cases hs : t.section? index with
  | none => rfl
  | some s =>
    by_cases hkind : s.kind = .approval
    · have hfound : ({ t with decisions := t.decisions.put index ⟨decision, actor, atUnixMs⟩ } :
          Task).section? index = some s := hs
      dsimp only
      rw [if_pos hkind, Op.exec_guard_neg (by simp [hkind]), Op.exec_modify_bind, exec_close hfound]
      rfl
    · simp [hkind]

def answered (t : Task) (question : Nat) (text : String) : Task :=
  (t.push .result (answerText question text)).modifySection question fun s => { s with closed := true }

theorem section?_push_of_some {index : Nat} {s : Section} (h : t.section? index = some s)
    (kind : SectionKind) (content : String) : (t.push kind content).section? index = some s := by
  simp only [section?, push, List.find?_append] at h ⊢
  rw [h]
  rfl

theorem exec_answer (t : Task) (question : Nat) (text : String) :
    (answer question text).exec t =
      match t.section? question with
      | none => (.error .unknownSection, t)
      | some s =>
        if s.kind = .question then (.ok t.nextIndex, t.answered question text)
        else (.error .notAQuestion, t) := by
  rw [answer, Op.exec_get_bind]
  cases hs : t.section? question with
  | none => rfl
  | some s =>
    by_cases hkind : s.kind = .question
    · have hfound := section?_push_of_some hs .result (answerText question text)
      dsimp only
      rw [if_pos hkind, Op.exec_guard_neg (by simp [hkind]), Op.exec_bind_ok (exec_append t _ _),
        Op.exec_bind_ok (exec_close hfound)]
      rfl
    · simp [hkind]

end Task

namespace Call

@[simp] theorem next_append (t : Task) (kind : SectionKind) (content : String) :
    next t (append kind content) = t.push kind content := rfl

/-- What a call finds where it does something, and the task it makes. -/
inductive Does (t : Task) : Call → Task → Prop
  | append : Does t (append kind content) (t.push kind content)
  | mutateContent (hs : t.section? index = some s) (hopen : s.closed = false) :
    Does t (mutateContent index content) (t.modifySection index fun s => { s with content })
  | decide (hs : t.section? index = some s) (hkind : s.kind = .approval) :
    Does t (decide index decision actor atUnixMs) (t.decided index ⟨decision, actor, atUnixMs⟩)
  | answer (hs : t.section? question = some s) (hkind : s.kind = .question) :
    Does t (answer question text) (t.answered question text)

/-- What a call finds where it does nothing. -/
def Refused (t : Task) : Call → Prop
  | append .. => False
  | mutateContent index _ => ∀ s, t.section? index = some s → s.closed = true
  | decide index .. => ∀ s, t.section? index = some s → s.kind ≠ .approval
  | answer question _ => ∀ s, t.section? question = some s → s.kind ≠ .question

theorem next_cases (t : Task) (c : Call) :
    (c.Does t (c.next t) ∧ (c.run.exec t).1 = .ok ()) ∨ (c.next t = t ∧ c.Refused t) := by
  cases c with
  | append kind content => exact .inl ⟨.append, rfl⟩
  | mutateContent index content =>
    rw [next, run, Task.exec_mutateContent, Refused]
    cases hs : t.section? index with
    | none => exact .inr ⟨rfl, nofun⟩
    | some s =>
      cases hclosed : s.closed with
      | true => exact .inr ⟨by simp [hclosed], by rintro _ ⟨rfl⟩; exact hclosed⟩
      | false => exact .inl (by simpa [hclosed] using Does.mutateContent hs hclosed)
  | decide index decision actor atUnixMs =>
    rw [next, run, Task.exec_decide, Refused]
    cases hs : t.section? index with
    | none => exact .inr ⟨rfl, nofun⟩
    | some s =>
      by_cases hkind : s.kind = .approval
      · exact .inl (by simpa [hkind] using Does.decide hs hkind)
      · exact .inr ⟨by simp [hkind], by rintro _ ⟨rfl⟩; exact hkind⟩
  | answer question text =>
    rw [next, run, Op.exec_bind, Task.exec_answer, Refused]
    cases hs : t.section? question with
    | none => exact .inr ⟨rfl, nofun⟩
    | some s =>
      by_cases hkind : s.kind = .question
      · exact .inl (by simpa [hkind] using Does.answer hs hkind)
      · exact .inr ⟨by simp [hkind], by rintro _ ⟨rfl⟩; exact hkind⟩

end Call

inductive Action
  | call (call : Call)
  | drive (events : List ReplayEvent)
  deriving DecidableEq, Repr

namespace Action

def next (t : Task) : Action → Task
  | call c => c.next t
  | drive events => ((⟨events⟩ : ReplayAdapter).drive t).2.2

end Action

namespace ReplayAdapter

/-- A transcript becomes sections, one after the other. -/
theorem drive_eq (a : ReplayAdapter) (t : Task) :
    (a.drive t).2.2 = a.events.foldl (fun t e => t.push (.fromTag e.tag) e.content) t := by
  have hloop : ∀ (events : List ReplayEvent) (n : Nat) (t : Task), (driveLoop n events t).2 =
      events.foldl (fun t e => t.push (.fromTag e.tag) e.content) t := by
    intro events
    induction events with
    | nil => exact fun _ _ => rfl
    | cons e events ih => exact fun n t => ih (n + 1) _
  exact hloop a.events 0 t

end ReplayAdapter

end Rill.Orchestrate
