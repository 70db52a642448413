import Rill.Lib.Runs
import Rill.Orchestrate.Persist

/-!
# Restarts

A task with its prompts, persisted and restored at any time. What comes back differs
from what was there in how the decisions are kept alone, and no call looks at that: whoever
uses the task cannot tell that it was restarted.
-/

namespace Rill.Orchestrate

open Lib

-- ---------------------------------------------------------------------------
-- One task, kept in two ways
-- ---------------------------------------------------------------------------

namespace Task

variable {t t' t'' : Task}

namespace Same

theorem refl (t : Task) : Same t t := ⟨rfl, rfl, rfl, fun _ => rfl⟩

theorem trans (h : Same t t') (k : Same t' t'') : Same t t'' :=
  ⟨k.id.trans h.id, k.nextIndex.trans h.nextIndex, k.sections.trans h.sections,
    fun i => (k.decisions i).trans (h.decisions i)⟩

theorem of_decisions {d : Table Nat Decision} (h : ∀ i, d.get? i = t.decisionFor i) :
    Same t { t with decisions := d } := ⟨rfl, rfl, rfl, h⟩

theorem exists_decisions (h : Same t t') :
    ∃ d, t' = { t with decisions := d } ∧ ∀ i, d.get? i = t.decisionFor i := by
  obtain ⟨id, nextIndex, sections, decisions⟩ := t'
  obtain ⟨hid, hnext, hsections, hdecisions⟩ := h
  subst hid hnext hsections
  exact ⟨decisions, rfl, hdecisions⟩

theorem push (h : Same t t') (kind : SectionKind) (content : String) :
    Same (t.push kind content) (t'.push kind content) := by
  obtain ⟨d, rfl, hd⟩ := h.exists_decisions
  exact of_decisions hd

theorem modifySection (h : Same t t') (index : Nat) (f : Section → Section) :
    Same (t.modifySection index f) (t'.modifySection index f) := by
  obtain ⟨d, rfl, hd⟩ := h.exists_decisions
  exact of_decisions hd

theorem answered (h : Same t t') (question : Nat) (text : String) :
    Same (t.answered question text) (t'.answered question text) := (h.push ..).modifySection _ _

theorem decided (h : Same t t') (index : Nat) (decision : Decision) :
    Same (t.decided index decision) (t'.decided index decision) := by
  obtain ⟨d, rfl, hd⟩ := h.exists_decisions
  refine modifySection (of_decisions fun i => ?_) _ _
  change (d.put index decision).get? i = (t.decisions.put index decision).get? i
  rw [Table.get?_put, Table.get?_put, hd]
  rfl

theorem isBlocked (h : Same t t') : t'.isBlocked = t.isBlocked := by
  obtain ⟨d, rfl, hd⟩ := h.exists_decisions
  have hpending (s : Section) : Task.pending { t with decisions := d } s = t.pending s := by
    unfold Task.pending
    cases s.kind with
    | approval => exact congrArg Option.isNone (hd s.index)
    | prompt | plan | tool | command | output | diff | result | question => rfl
  exact congrArg (t.newest.any ·) (funext hpending)

theorem section? (h : Same t t') (index : Nat) : t'.section? index = t.section? index :=
  congrArg (List.find? fun s : Section => s.index = index) h.sections

theorem driveLoop (h : Same t t') (n : Nat) (events : List ReplayEvent) :
    (ReplayAdapter.driveLoop n events t').1 = (ReplayAdapter.driveLoop n events t).1 ∧
      Same (ReplayAdapter.driveLoop n events t).2 (ReplayAdapter.driveLoop n events t').2 := by
  induction events generalizing n t t' with
  | nil => exact ⟨rfl, h⟩
  | cons e events ih => exact ih (h.push _ _) (n + 1)

end Same

end Task

/-- The call, with the index that some of them answer. -/
def Call.reply : Call → Op Task TaskError (Option Nat)
  | append kind content => do pure (some (← Task.append kind content))
  | mutateContent index content => do
    Task.mutateContent index content
    pure none
  | decide index decision actor atUnixMs => do
    Task.decide index decision actor atUnixMs
    pure none
  | answer question text => do pure (some (← Task.answer question text))

/-- No call looks at how the decisions are kept. -/
theorem Task.Same.call {t t' : Task} (h : Task.Same t t') (c : Call) :
    (c.reply.exec t').1 = (c.reply.exec t).1 ∧
      Task.Same (c.reply.exec t).2 (c.reply.exec t').2 := by
  cases c with
  | append kind content =>
    exact ⟨congrArg (fun n : Nat => Except.ok (some n)) h.nextIndex, h.push kind content⟩
  | mutateContent index content =>
    rw [Call.reply, Op.exec_bind, Op.exec_bind, exec_mutateContent, exec_mutateContent, h.section?]
    cases t.section? index with
    | none => exact ⟨rfl, h⟩
    | some s =>
      cases hclosed : s.closed with
      | true => simpa [hclosed] using h
      | false => simpa [hclosed] using h.modifySection index _
  | decide index decision actor atUnixMs =>
    rw [Call.reply, Op.exec_bind, Op.exec_bind, exec_decide, exec_decide, h.section?]
    cases t.section? index with
    | none => exact ⟨rfl, h⟩
    | some s =>
      by_cases hkind : s.kind = .approval
      · simpa [hkind] using h.decided index _
      · simpa [hkind] using h
  | answer question text =>
    rw [Call.reply, Op.exec_bind, Op.exec_bind, exec_answer, exec_answer, h.section?]
    cases t.section? question with
    | none => exact ⟨rfl, h⟩
    | some s =>
      by_cases hkind : s.kind = .question
      · simpa [hkind, h.nextIndex] using h.answered question text
      · simpa [hkind] using h

-- ---------------------------------------------------------------------------
-- A task and its prompts
-- ---------------------------------------------------------------------------

structure Desk where
  task : Task
  queue : PromptQueue

/-- What is done at a desk. For a restart, the name that is given to what comes back and the order
in which the walk over the decisions meets them. -/
inductive Turn
  | call (call : Call)
  | drive (events : List ReplayEvent)
  | prompt (text : String)
  | send
  | restart (id : TaskId) (order : List (Nat × Decision))
  deriving DecidableEq, Repr

def Turn.isRestart : Turn → Bool
  | restart .. => true
  | call _ | drive _ | prompt _ | send => false

inductive Answer
  | called (result : Except TaskError (Option Nat))
  | driven (sections : Nat)
  | sent (result : Except TaskError (Option String))

namespace Desk

def new (id : TaskId) : Desk := ⟨.new id, .new⟩

def next (toml : Toml) (d : Desk) : Turn → Desk
  | .call c => { d with task := (c.reply.exec d.task).2 }
  | .drive events => { d with task := ((⟨events⟩ : ReplayAdapter).drive d.task).2.2 }
  | .prompt text => { d with queue := d.queue.push text }
  | .send => { d with queue := ((PromptQueue.trySend d.task).exec d.queue).2 }
  | .restart id order =>
    let (task, queue) := restoreTaskAndQueue toml id (persistTaskAndQueue toml d.task d.queue order)
    ⟨task, queue⟩

def answers (d : Desk) : Turn → List Answer
  | .call c => [.called (c.reply.exec d.task).1]
  | .drive events => [.driven ((⟨events⟩ : ReplayAdapter).drive d.task).1]
  | .send => [.sent ((PromptQueue.trySend d.task).exec d.queue).1]
  | .prompt _ | .restart .. => []

/-- A restart meets each decision once, and the integers of the task are below `2 ^ 63`. -/
def Keeps (d : Desk) : Turn → Prop
  | .restart _ order => order.Perm d.task.decisions.entries ∧ d.task.Fits
  | .call _ | .drive _ | .prompt _ | .send => True

structure Same (d d' : Desk) : Prop where
  task : Task.Same d.task d'.task
  queue : d'.queue = d.queue

end Desk

def Answer.text : Answer → Option String
  | sent (.ok text) => text
  | sent (.error _) | called _ | driven _ => none

def Turn.text : Turn → Option String
  | prompt text => some text
  | call _ | drive _ | send | restart .. => none

namespace Desk

variable {toml : Toml} {d d' : Desk}

theorem exec_trySend (t : Task) (q : PromptQueue) :
    (PromptQueue.trySend t).exec q =
      if t.isBlocked then (.error .stillBlocked, q) else (.ok q.items.head?, ⟨q.items.tail⟩) := by
  cases hblocked : t.isBlocked with
  | true =>
    rw [PromptQueue.trySend, Op.exec_guard_pos hblocked]
    rfl
  | false =>
    rw [PromptQueue.trySend, Op.exec_guard_neg (by simp [hblocked])]
    rfl

theorem Same.trans {d'' : Desk} (h : Same d d') (k : Same d' d'') : Same d d'' :=
  ⟨h.task.trans k.task, k.queue.trans h.queue⟩

/-- What restarts leave alike, the other turns leave alike, with the same answers. -/
theorem Same.turn (toml : Toml) (h : Same d d') {turn : Turn} (hturn : turn.isRestart = false) :
    d'.answers turn = d.answers turn ∧ Same (d.next toml turn) (d'.next toml turn) := by
  obtain ⟨htask, hqueue⟩ := h
  cases turn with
  | call c =>
    obtain ⟨hanswer, hnext⟩ := htask.call c
    exact ⟨congrArg (fun r => [Answer.called r]) hanswer, hnext, hqueue⟩
  | drive events =>
    obtain ⟨hcount, hnext⟩ := htask.driveLoop 0 events
    exact ⟨congrArg (fun n => [Answer.driven n]) hcount, hnext, hqueue⟩
  | prompt text => exact ⟨rfl, htask, congrArg (·.push text) hqueue⟩
  | send =>
    have hsend : (PromptQueue.trySend d'.task).exec d'.queue =
        (PromptQueue.trySend d.task).exec d.queue := by
      rw [exec_trySend, exec_trySend, htask.isBlocked, hqueue]
    exact ⟨congrArg (fun r => [Answer.sent r]) (congrArg Prod.fst hsend), htask,
      congrArg Prod.snd hsend⟩
  | restart id order => cases hturn

theorem same_restart (htoml : toml.Documented) {id : TaskId} {order : List (Nat × Decision)}
    (h : d.Keeps (.restart id order)) : Same d (d.next toml (.restart id order)) := by
  obtain ⟨horder, hfits⟩ := h
  obtain ⟨htask, hqueue⟩ := restore_persist_of_fits htoml hfits d.queue id horder
  exact ⟨htask, hqueue⟩

/-- The prompts leave the queue in their order, each once. -/
theorem sent_append (htoml : toml.Documented) {turn : Turn} (h : d.Keeps turn) :
    (d.answers turn).filterMap Answer.text ++ (d.next toml turn).queue.items =
      d.queue.items ++ [turn].filterMap Turn.text := by
  cases turn with
  | call c | drive events => simp [answers, next, List.filterMap_cons, Answer.text, Turn.text]
  | prompt text => simp [answers, next, PromptQueue.push, Turn.text]
  | send =>
    rw [answers, next, exec_trySend]
    cases d.task.isBlocked with
    | true => simp [List.filterMap_cons, Answer.text, Turn.text]
    | false =>
      cases d.queue.items with
      | nil => simp [List.filterMap_cons, Answer.text, Turn.text]
      | cons text items => simp [List.filterMap_cons, Answer.text, Turn.text]
  | restart id order => simp [answers, List.filterMap_cons, Turn.text, (same_restart htoml h).queue]

/-- A run with restarts beside the one without them, in which a restart is no step at all. -/
theorem Same.run (htoml : toml.Documented) (h : Same d d') {turns : List Turn}
    (hturns : AllAlong (next toml) Keeps d' turns) :
    along (next toml) answers d' turns =
        along (next toml) answers d (turns.filter (!·.isRestart)) ∧
      Same ((turns.filter (!·.isRestart)).foldl (next toml) d) (turns.foldl (next toml) d') := by
  induction turns generalizing d d' with
  | nil => exact ⟨rfl, h⟩
  | cons turn turns ih =>
    obtain ⟨hturn, hrest⟩ := hturns
    cases hkind : turn.isRestart with
    | false =>
      obtain ⟨hanswers, hnext⟩ := h.turn toml hkind
      obtain ⟨hall, hend⟩ := ih hnext hrest
      simp only [List.filter_cons, hkind, Bool.not_false, if_true, along, List.foldl_cons]
      exact ⟨by rw [hanswers, hall], hend⟩
    | true =>
      cases turn with
      | restart id order => exact ih (h.trans (same_restart htoml hturn)) hrest
      | call c | drive events | prompt text | send => cases hkind

theorem sent_append_run (htoml : toml.Documented) {turns : List Turn}
    (hturns : AllAlong (next toml) Keeps d turns) :
    (along (next toml) answers d turns).filterMap Answer.text ++
        (turns.foldl (next toml) d).queue.items =
      d.queue.items ++ turns.filterMap Turn.text := by
  induction turns generalizing d with
  | nil => simp [along]
  | cons turn turns ih =>
    obtain ⟨hturn, hrest⟩ := hturns
    calc (along (next toml) answers d (turn :: turns)).filterMap Answer.text ++
          ((turn :: turns).foldl (next toml) d).queue.items
        = (d.answers turn).filterMap Answer.text ++
          ((next toml d turn).queue.items ++ turns.filterMap Turn.text) := by
          rw [along, List.filterMap_append, List.append_assoc, List.foldl_cons, ih hrest]
      _ = d.queue.items ++ ([turn].filterMap Turn.text ++ turns.filterMap Turn.text) := by
          rw [← List.append_assoc, sent_append htoml hturn, List.append_assoc]
      _ = d.queue.items ++ (turn :: turns).filterMap Turn.text := by
          rw [← List.filterMap_append, List.singleton_append]

def after (toml : Toml) (id : TaskId) (turns : List Turn) : Desk := turns.foldl (next toml) (.new id)

def heard (toml : Toml) (id : TaskId) (turns : List Turn) : List Answer :=
  along (next toml) answers (.new id) turns

/-- Whoever sits at a desk cannot tell when it was restarted; and the prompts that were sent and
those still queued are the prompts that were given, in their order. -/
theorem restarts_unseen (htoml : toml.Documented) (id : TaskId) (turns : List Turn)
    (hturns : AllAlong (next toml) Keeps (.new id) turns) :
    heard toml id turns = heard toml id (turns.filter (!·.isRestart)) ∧
      Same (after toml id (turns.filter (!·.isRestart))) (after toml id turns) ∧
      (heard toml id turns).filterMap Answer.text ++ (after toml id turns).queue.items =
        turns.filterMap Turn.text := by
  obtain ⟨hheard, hsame⟩ := Same.run htoml ⟨.refl (.new id), rfl⟩ hturns
  exact ⟨hheard, hsame, sent_append_run htoml hturns⟩

/-- A task with an approval that was decided and a prompt that is still to be sent. -/
def decidedPage : Page where
  doc := ⟨7, 1, [⟨0, "approval", "sure?", true⟩], [⟨0, "approved", "user", 42⟩], ["then this"]⟩
  text := "id = 7\n" ++ ("next_index = 1\nqueue = [\"then this\"]\n\n" ++
    "[[section]]\nindex = 0\nkind = \"approval\"\ncontent = \"sure?\"\nclosed = true\n\n" ++
    "[[decision]]\nsection_index = 0\ndecision = \"approved\"\nactor = \"user\"\nat_unix_ms = 42\n")
  fits := by decide
  starts := by
    rw [String.toList_append]
    rfl

/-- An approval that was decided before the restart stays decided, and the next prompt goes out. -/
theorem restarts_unseen_approved :
    let toml := formatAt decidedPage
    let turns : List Turn := [.call (.append .approval "sure?"), .prompt "next step",
      .prompt "then this", .send, .call (.decide 0 .approved "user" 42), .send,
      .restart ⟨7⟩ [(0, ⟨.approved, "user", 42⟩)], .send]
    let kept := after toml ⟨7⟩ (turns.take 6)
    persistTaskAndQueue toml kept.task kept.queue [(0, ⟨.approved, "user", 42⟩)] = decidedPage.text ∧
      (heard toml ⟨7⟩ turns).filterMap Answer.text = ["next step", "then this"] ∧
      (after toml ⟨7⟩ turns).queue = ⟨[]⟩ := by
  intro toml turns kept
  have hdoc : snapshotDoc kept.task kept.queue [(0, ⟨.approved, "user", 42⟩)] = decidedPage.doc := by decide
  obtain ⟨hheard, hsame, -⟩ := restarts_unseen (documented_formatAt decidedPage) ⟨7⟩ turns
    ⟨trivial, trivial, trivial, trivial, trivial, trivial,
      ⟨.refl _, (fits_snapshotDoc (q := .new) (.refl _)).mp (by decide)⟩, trivial, trivial⟩
  refine ⟨?_, congrArg (List.filterMap Answer.text) hheard, hsame.queue⟩
  rw [persistTaskAndQueue, hdoc, toStringPretty_formatAt, Option.getD_some]

end Desk

end Rill.Orchestrate
