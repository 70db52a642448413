import Rill.Lib.Runs
import Rill.Lib.Slots
import Rill.Orchestrate.Task

/-!
# Answers

What can end the wait for a decision or an answer, besides the user: text that
looks like one.
-/

namespace Rill.Orchestrate

open Lib

/-- The text passes for an answer to the section. -/
def Section.Passes (s : Section) (content : String) : Prop :=
  s.kind = .question ∧ startsWith content (marker s.index) = true

namespace Task

variable {t : Task} {s : Section}

-- ---------------------------------------------------------------------------
-- What ends the wait
-- ---------------------------------------------------------------------------

theorem pending_iff (t : Task) (s : Section) :
    t.pending s = true ↔ (s.kind = .approval ∧ t.decisionFor s.index = none) ∨
      (s.kind = .question ∧ t.hasAnswer s.index = false) := by
  unfold pending
  cases hkind : s.kind <;> simp

theorem pending_next_iff {t' : Task} (hp : t.pending s = true) {forged : Prop}
    (hdecision : t'.decisionFor s.index = t.decisionFor s.index)
    (hanswer : t.hasAnswer s.index = false → (t'.hasAnswer s.index = true ↔ forged)) :
    t'.pending s = true ↔ ¬ (s.kind = .question ∧ forged) := by
  obtain ⟨hkind, hnone⟩ | ⟨hkind, hfalse⟩ := (t.pending_iff s).mp hp
  · simp [pending_iff, hkind, hdecision, hnone]
  · simp [pending_iff, hkind, ← hanswer hfalse]

theorem hasAnswer_push (t : Task) (kind : SectionKind) (content : String) (q : Nat) :
    (t.push kind content).hasAnswer q = (t.hasAnswer q || startsWith content (marker q)) := by
  simp [hasAnswer, push]

theorem hasAnswer_foldl_push (events : List ReplayEvent) (t : Task) (q : Nat) :
    (events.foldl (fun t e => t.push (.fromTag e.tag) e.content) t).hasAnswer q =
      (t.hasAnswer q || events.any fun e => startsWith e.content (marker q)) := by
  induction events generalizing t with
  | nil => simp
  | cons e events ih =>
    rw [List.foldl_cons, ih, hasAnswer_push, List.any_cons, Bool.or_assoc]

theorem decisionFor_foldl_push (events : List ReplayEvent) (t : Task) (i : Nat) :
    (events.foldl (fun t e => t.push (.fromTag e.tag) e.content) t).decisionFor i = t.decisionFor i := by
  induction events generalizing t with
  | nil => rfl
  | cons e events ih => exact ih _

theorem hasAnswer_modify_close (t : Task) (i q : Nat) :
    (t.modifySection i fun s => { s with closed := true }).hasAnswer q = t.hasAnswer q :=
  any_modify_congr (p := fun s : Section => startsWith s.content (marker q))
    (f := fun s : Section => { s with closed := true }) (fun _ => rfl) t.sections _

theorem hasAnswer_answered (t : Task) (i q : Nat) (text : String) :
    (t.answered i text).hasAnswer q = true ↔ t.hasAnswer q = true ∨ i = q := by
  rw [answered, hasAnswer_modify_close, hasAnswer_push, Bool.or_eq_true, startsWith_answerText]

theorem decisionFor_decided (t : Task) (i : Nat) (d : Decision) (j : Nat) :
    (t.decided i d).decisionFor j = if j = i then some d else t.decisionFor j :=
  t.decisions.get?_put i d j

end Task

namespace Action

/-- The action is no decision and no answer on the section with this index. -/
def Spares (index : Nat) : Action → Prop
  | call (.decide i ..) => i ≠ index
  | call (.answer q _) => q ≠ index
  | call (.append ..) | call (.mutateContent ..) | drive _ => True

/-- No text that is written passes for an answer to the section. -/
def Quiet (s : Section) (t : Task) : Action → Prop
  | call (.append _ content) => ¬ s.Passes content
  | call (.mutateContent i content) => ∀ r, t.section? i = some r → r.closed = false → ¬ s.Passes content
  | drive events => ∀ e ∈ events, ¬ s.Passes e.content
  | call (.decide ..) | call (.answer ..) => True

theorem quiet_of_refused {t : Task} (s : Section) {c : Call} (h : c.Refused t) :
    (call c).Quiet s t := by
  cases c with
  | append => exact h.elim
  | mutateContent i content =>
    intro r hr hopen
    rw [h r hr] at hopen
    cases hopen
  | decide | answer => trivial

theorem pending_call (t : Task) {s : Section} (hp : t.pending s = true) {c : Call}
    (hspares : (call c).Spares s.index) : (c.next t).pending s = true ↔ (call c).Quiet s t := by
  obtain ⟨hdoes, -⟩ | ⟨hsame, hrefused⟩ := c.next_cases t
  · generalize c.next t = t' at hdoes ⊢
    cases hdoes with
    | append => exact Task.pending_next_iff hp rfl fun hfalse => by simp [Task.hasAnswer_push, hfalse]
    | @mutateContent i r content hs hopen =>
      have hquiet : (call (.mutateContent i content)).Quiet s t ↔ ¬ s.Passes content :=
        ⟨fun h => h r hs hopen, fun h _ _ _ => h⟩
      rw [hquiet]
      refine Task.pending_next_iff hp rfl fun hfalse => ?_
      exact Bool.eq_iff_iff.mp
        (any_modify_of_none hfalse (Task.getElem?_findIdx hs) fun s => { s with content })
    | @decide i r decision actor atUnixMs =>
      have hdecision : (t.decided i ⟨decision, actor, atUnixMs⟩).decisionFor s.index =
          t.decisionFor s.index :=
        (t.decisionFor_decided i _ s.index).trans (if_neg (Ne.symm hspares))
      have hanswer : (t.decided i ⟨decision, actor, atUnixMs⟩).hasAnswer s.index =
          t.hasAnswer s.index := t.hasAnswer_modify_close i s.index
      have hkept : (t.decided i ⟨decision, actor, atUnixMs⟩).pending s = true ↔
          ¬ (s.kind = .question ∧ False) :=
        Task.pending_next_iff hp hdecision fun hfalse => by simp [hanswer, hfalse]
      exact iff_of_true (hkept.mpr fun h => h.2) trivial
    | @answer q r text =>
      have hother : ¬ q = s.index := hspares
      have hkept : (t.answered q text).pending s = true ↔ ¬ (s.kind = .question ∧ False) :=
        Task.pending_next_iff hp rfl fun hfalse => by simp [Task.hasAnswer_answered, hfalse, hother]
      exact iff_of_true (hkept.mpr fun h => h.2) trivial
  · rw [hsame]
    exact iff_of_true hp (quiet_of_refused s hrefused)

theorem pending_next (t : Task) {s : Section} (hp : t.pending s = true) {a : Action}
    (hspares : a.Spares s.index) : (a.next t).pending s = true ↔ a.Quiet s t := by
  cases a with
  | call c => exact pending_call t hp hspares
  | drive events =>
    rw [next, ReplayAdapter.drive_eq]
    have hforged : t.hasAnswer s.index = false →
        ((events.foldl (fun t e => t.push (.fromTag e.tag) e.content) t).hasAnswer s.index = true ↔
          ∃ e ∈ events, startsWith e.content (marker s.index) = true) := fun hfalse => by
      simp [Task.hasAnswer_foldl_push, hfalse]
    refine (Task.pending_next_iff hp (Task.decisionFor_foldl_push events t _) hforged).trans ?_
    constructor
    · exact fun h e he hpasses => h ⟨hpasses.1, e, he, hpasses.2⟩
    · exact fun h ⟨hkind, e, he, hstarts⟩ => h e he ⟨hkind, hstarts⟩

end Action

/-- A section that waits for the user waits all along a run that does not decide or answer it,
exactly when nothing that is written on the way passes for an answer to it. -/
theorem pending_along_iff (t : Task) {s : Section} (hp : t.pending s = true) {actions : List Action}
    (hspares : ∀ a ∈ actions, a.Spares s.index) :
    (∀ pre, pre <+: actions → (pre.foldl Action.next t).pending s = true) ↔
      AllAlong Action.next (fun t a => a.Quiet s t) t actions :=
  holds_along_iff (A := fun a : Action => a.Spares s.index) (I := fun _ => True)
    (P := fun t : Task => t.pending s = true) (fun _ _ _ => trivial)
    (fun t _ ha _ hp => Action.pending_next t hp ha) trivial hp hspares

def asking : Task := (Task.new ⟨1⟩).push .question "which key?"

/-- Output that is about the answer, without its marker at the start. -/
theorem pending_along_iff_output :
    (asking.push .output "see [answers #0]").pending ⟨0, .question, "which key?", false⟩ = true := by
  have hspares : ∀ a ∈ [Action.call (.append .output "see [answers #0]")], a.Spares 0 := by
    rintro a ha
    obtain rfl := List.mem_singleton.mp ha
    trivial
  have hquiet : ¬ (⟨0, .question, "which key?", false⟩ : Section).Passes "see [answers #0]" :=
    fun h => absurd h.2 (by decide)
  exact (pending_along_iff asking (s := ⟨0, .question, "which key?", false⟩) (by decide) hspares).mpr
    ⟨hquiet, trivial⟩ _ (List.prefix_refl _)

/-- A replayed transcript answers the question itself. -/
theorem replay_answers :
    asking.isBlocked = true ∧
      ((Action.drive [⟨"output", "[answers #0] the old one"⟩]).next asking).isBlocked = false ∧
      ((Action.drive [⟨"output", "[answers #0] the old one"⟩]).next asking).hasAnswer 0 = true ∧
      ((Action.drive [⟨"output", "[answers #0] the old one"⟩]).next asking).section? 0 =
        some ⟨0, .question, "which key?", false⟩ := by
  decide

end Rill.Orchestrate
