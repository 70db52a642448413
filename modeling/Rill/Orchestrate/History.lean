import Rill.Lib.Runs
import Rill.Orchestrate.Task

/-!
# History

What was closed, decided or answered once, under any actions that follow.
-/

namespace Rill.Orchestrate

open Lib

namespace Task

variable {t : Task}

structure Extends (t t' : Task) : Prop where
  sections : ∀ (i : Nat) (s : Section), t.sections[i]? = some s → s.closed = true →
    t'.sections[i]? = some s
  decisions : ∀ (i : Nat) (d : Decision), t.decisionFor i = some d → t'.decisionFor i = some d

namespace Extends

theorem refl (t : Task) : Extends t t := ⟨fun _ _ hs _ => hs, fun _ _ hd => hd⟩

theorem trans {t₁ t₂ t₃ : Task} (h : Extends t₁ t₂) (h' : Extends t₂ t₃) : Extends t₁ t₃ :=
  ⟨fun i s hs hclosed => h'.sections i s (h.sections i s hs hclosed) hclosed,
    fun i d hd => h'.decisions i d (h.decisions i d hd)⟩

theorem push (t : Task) (kind : SectionKind) (content : String) : Extends t (t.push kind content) := by
  refine ⟨fun i s hs _ => ?_, fun _ _ hd => hd⟩
  have hi := (List.getElem?_eq_some_iff.mp hs).1
  rwa [Task.push, List.getElem?_append_left hi]

theorem modifySection (t : Task) (i : Nat) {f : Section → Section}
    (hf : ∀ s, t.section? i = some s → s.closed = true → f s = s) : Extends t (t.modifySection i f) := by
  refine ⟨fun j s hs hclosed => ?_, fun _ _ hd => hd⟩
  rw [Task.modifySection, List.getElem?_modify, hs]
  split
  case isFalse => rfl
  case isTrue hj =>
    have hfound : t.section? i = some s := by
      rw [section?, List.find?_eq_getElem?_findIdx, hj, hs]
    exact congrArg some (hf s hfound hclosed)

theorem decided (t : Task) (i : Nat) (d : Decision) (hnone : t.decisionFor i = none) :
    Extends t (t.decided i d) := by
  have hclose : Extends t (t.modifySection i fun s => { s with closed := true }) :=
    modifySection t i fun s _ hclosed => by rw [← hclosed]
  refine ⟨hclose.sections, fun j d' hd' => ?_⟩
  have hne : j ≠ i := by
    rintro rfl
    rw [hnone] at hd'
    cases hd'
  exact (t.decisions.get?_put i d j).trans ((if_neg hne).trans hd')

theorem answered (t : Task) (q : Nat) (text : String) : Extends t (t.answered q text) :=
  (push t .result (answerText q text)).trans
    (modifySection _ q fun s _ hclosed => by rw [← hclosed])

end Extends

/-- The question was answered. -/
def Answered (t : Task) (q : Nat) : Prop :=
  ∃ s, t.section? q = some s ∧ s.kind = .question ∧ s.closed = true

theorem decide_ok_iff (t : Task) (i : Nat) (decision : ApprovalDecision) (actor : String)
    (atUnixMs : UInt64) : ((Task.decide i decision actor atUnixMs).exec t).1 = .ok () ↔
      ∃ s, t.section? i = some s ∧ s.kind = .approval := by
  rw [exec_decide]
  cases t.section? i with
  | none => simp
  | some s => by_cases hkind : s.kind = .approval <;> simp [hkind]

end Task

namespace Action

/-- No approval is decided that was decided before, and no question answered that was answered. -/
def Fresh (t : Task) : Action → Prop
  | call (.decide i ..) => ∀ s, t.section? i = some s → s.kind = .approval → t.decisionFor i = none
  | call (.answer q _) => ¬ t.Answered q
  | call (.append ..) | call (.mutateContent ..) | drive _ => True

theorem extends_call {t : Task} {c : Call} (hfresh : (call c).Fresh t) : Task.Extends t (c.next t) := by
  obtain ⟨hdoes, -⟩ | ⟨hsame, -⟩ := c.next_cases t
  · generalize c.next t = t' at hdoes
    cases hdoes with
    | append => exact .push t _ _
    | @mutateContent i s content hs hopen =>
      refine .modifySection t i fun s' hs' hclosed => ?_
      obtain rfl : s = s' := Option.some.inj (hs.symm.trans hs')
      rw [hopen] at hclosed
      cases hclosed
    | decide hs hkind => exact .decided t _ _ (hfresh _ hs hkind)
    | answer => exact .answered t _ _
  · rw [hsame]
    exact .refl t

theorem extends_next {t : Task} {a : Action} (hfresh : a.Fresh t) : Task.Extends t (a.next t) := by
  cases a with
  | drive events =>
    rw [next, ReplayAdapter.drive_eq]
    dsimp only
    clear hfresh
    induction events generalizing t with
    | nil => exact .refl t
    | cons e events ih => exact (Task.Extends.push t _ _).trans ih
  | call c => exact extends_call hfresh

end Action

/-- A call that fails leaves the task as it was. -/
theorem Call.next_of_error {t : Task} {c : Call} {e : TaskError} (h : (c.run.exec t).1 = .error e) :
    c.next t = t := by
  obtain ⟨-, hok⟩ | ⟨hsame, -⟩ := c.next_cases t
  · rw [hok] at h
    cases h
  · exact hsame

/-- What is promised of the history of a task under actions. -/
structure AppendOnly (t : Task) (actions : List Action) : Prop where
  kept : ∀ pre post, pre ++ post = actions →
    Task.Extends (pre.foldl Action.next t) (actions.foldl Action.next t)
  decidedOnce : ∀ pre i decision actor atUnixMs,
    pre ++ [.call (.decide i decision actor atUnixMs)] <+: actions →
    (pre.foldl Action.next t).decisionFor i ≠ none →
    ((Task.decide i decision actor atUnixMs).exec (pre.foldl Action.next t)).1 ≠ .ok ()
  answeredOnce : ∀ pre q text, pre ++ [.call (.answer q text)] <+: actions →
    (pre.foldl Action.next t).Answered q →
    ∀ index, ((Task.answer q text).exec (pre.foldl Action.next t)).1 ≠ .ok index
  errors : ∀ pre c, pre ++ [.call c] <+: actions →
    ∀ e, (c.run.exec (pre.foldl Action.next t)).1 = .error e →
    c.next (pre.foldl Action.next t) = pre.foldl Action.next t

theorem AppendOnly.fresh {t : Task} {actions : List Action} (h : AppendOnly t actions)
    {pre : List Action} {a : Action} (hpre : pre ++ [a] <+: actions) :
    a.Fresh (pre.foldl Action.next t) := by
  cases a with
  | drive events => trivial
  | call c =>
    cases c with
    | append | mutateContent => trivial
    | decide i decision actor atUnixMs =>
      intro s hs hkind
      by_contra hdecided
      exact h.decidedOnce pre i decision actor atUnixMs hpre hdecided
        ((Task.decide_ok_iff ..).mpr ⟨s, hs, hkind⟩)
    | answer q text =>
      intro hanswered
      have hquestion := hanswered
      obtain ⟨s, hs, hkind, -⟩ := hquestion
      refine h.answeredOnce pre q text hpre hanswered (pre.foldl Action.next t).nextIndex ?_
      rw [Task.exec_answer, hs]
      exact congrArg Prod.fst (if_pos hkind)

/-- The history is append-only exactly when nothing is decided or answered twice. -/
theorem appendOnly_iff (t : Task) (actions : List Action) :
    AppendOnly t actions ↔ AllAlong Action.next (fun t a => a.Fresh t) t actions := by
  constructor
  · exact fun h => (allAlong_iff t actions).mpr fun _ _ hpre => h.fresh hpre
  · intro h
    have hfresh := (allAlong_iff t actions).mp h
    refine ⟨fun pre post hsplit => ?_, fun pre i decision actor atUnixMs hpre hdecided hok => ?_,
      fun pre q text hpre hanswered _ _ => hfresh pre _ hpre hanswered,
      fun pre c _ e he => Call.next_of_error he⟩
    · subst hsplit
      rw [List.foldl_append]
      exact h.after.relates (R := Task.Extends) .refl (fun _ _ _ h h' => h.trans h') fun _ _ =>
        Action.extends_next
    · obtain ⟨s, hs, hkind⟩ := (Task.decide_ok_iff ..).mp hok
      exact hdecided (hfresh pre _ hpre s hs hkind)

/-- An approval given and then taken back. -/
theorem decided_twice :
    let verdict (d : ApprovalDecision) (atUnixMs : UInt64) := Action.call (.decide 0 d "user" atUnixMs)
    let t := [Action.call (.append .approval "push?"), verdict .approved 1].foldl Action.next (.new ⟨1⟩)
    t.decisionFor 0 = some ⟨.approved, "user", 1⟩ ∧
      ((verdict .rejected 2).next t).decisionFor 0 = some ⟨.rejected, "user", 2⟩ ∧
      ¬ AppendOnly t [verdict .rejected 2] := by
  refine ⟨by decide, by decide, fun h => ?_⟩
  have hkept := (h.kept [] _ rfl).decisions 0 ⟨.approved, "user", 1⟩ (by decide)
  exact absurd hkept (by decide)

end Rill.Orchestrate
