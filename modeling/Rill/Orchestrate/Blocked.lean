import Rill.Orchestrate.Answers
import Rill.Orchestrate.Numbering

/-!
# What blocks a task

`is_blocked` looks at the latest approval or question alone, and takes a
question for answered by the text of any section. What is open is another
matter: approvals without a decision, and questions that `answer` did not close.
-/

namespace Rill.Orchestrate

open Lib

namespace Task

variable {t : Task}

/-- The section waits for the user, whatever the text of the others says. -/
def isOpen (t : Task) (s : Section) : Bool :=
  match s.kind with
  | .approval => (t.decisionFor s.index).isNone
  | .question => !s.closed
  | _ => false

def HasOpen (t : Task) : Prop := ∃ s ∈ t.sections, t.isOpen s = true

/-- What is promised of a task with anything open: it is blocked, and no prompt leaves a queue. -/
structure Blocks (t : Task) : Prop where
  blocked : t.HasOpen → t.isBlocked = true
  refused : t.HasOpen → ∀ q, (PromptQueue.trySend t).exec q = (.error .stillBlocked, q)

theorem blocks_iff (t : Task) : t.Blocks ↔ (t.HasOpen → t.isBlocked = true) := by
  refine ⟨Blocks.blocked, fun h => ⟨h, fun hopen q => ?_⟩⟩
  rw [PromptQueue.trySend, Op.exec_guard_pos (h hopen)]

theorem asks_of_isOpen {s : Section} (h : t.isOpen s = true) : s.kind.asks = true := by
  unfold isOpen at h
  split at h
  case h_1 hkind => rw [hkind]; rfl
  case h_2 hkind => rw [hkind]; rfl
  case h_3 => cases h

theorem mem_of_newest {r : Section} (h : t.newest = some r) : r ∈ t.sections :=
  List.mem_reverse.mp (List.mem_of_find?_eq_some h)

/-- A task with anything open has a latest section that asks. -/
theorem newest_of_hasOpen (h : t.HasOpen) : ∃ r, t.newest = some r := by
  obtain ⟨s, hs, hopen⟩ := h
  refine Option.isSome_iff_exists.mp (List.find?_isSome.mpr ⟨s, List.mem_reverse.mpr hs, ?_⟩)
  exact asks_of_isOpen hopen

-- ---------------------------------------------------------------------------
-- Sections changed in their place
-- ---------------------------------------------------------------------------

def atIndex (i : Nat) (f : Section → Section) (s : Section) : Section := if s.index = i then f s else s

theorem Numbered.sections_modifySection (h : t.Numbered) (i : Nat) (f : Section → Section) :
    (t.modifySection i f).sections = t.sections.map (atIndex i f) := by
  refine List.ext_getElem? fun j => ?_
  rw [Task.modifySection, List.getElem?_modify, List.getElem?_map]
  cases hr : t.sections[j]? with
  | none => rfl
  | some r =>
    have hindex := h.index j r hr
    by_cases hj : r.index = i
    · have hfind : t.sections.findIdx (fun s => s.index = i) = j := by
        rw [← hj, hindex]
        exact h.findIdx_eq hr
      simp [hfind, atIndex, hj]
    · have hfind : t.sections.findIdx (fun s => s.index = i) ≠ j := by
        rintro rfl
        have hlt := (List.getElem?_eq_some_iff.mp hr).1
        have hat := List.findIdx_getElem (w := hlt)
        rw [(List.getElem?_eq_some_iff.mp hr).2] at hat
        exact hj (by simpa using hat)
      simp [hfind, atIndex, hj]

theorem Mild.atIndex {f : Section → Section} (hf : Mild f) (i : Nat) : Mild (atIndex i f) := by
  refine ⟨fun s => ?_, fun s => ?_, fun s hs => ?_⟩
  all_goals
    unfold Task.atIndex
    split
  · exact hf.index s
  · rfl
  · exact hf.kind s
  · rfl
  · exact hf.closed s hs
  · exact hs

theorem Numbered.newest_modifySection (h : t.Numbered) {f : Section → Section} (hf : Mild f) (i : Nat) :
    (t.modifySection i f).newest = t.newest.map (atIndex i f) := by
  have hasks : ((fun s : Section => s.kind.asks) ∘ atIndex i f) = fun s => s.kind.asks :=
    funext fun s => congrArg SectionKind.asks ((hf.atIndex i).kind s)
  rw [Task.newest, h.sections_modifySection, ← List.map_reverse, List.find?_map, hasks]
  rfl

theorem Numbered.mem_modifySection (h : t.Numbered) (f : Section → Section) (i : Nat) (s : Section) :
    s ∈ (t.modifySection i f).sections ↔ ∃ r ∈ t.sections, atIndex i f r = s := by
  rw [h.sections_modifySection, List.mem_map]

theorem isBlocked_iff (t : Task) :
    t.isBlocked = true ↔ ∃ r, t.newest = some r ∧ t.pending r = true := by
  rw [isBlocked, Option.any_eq_true]

theorem mem_push {kind : SectionKind} {content : String} {s : Section} :
    s ∈ (t.push kind content).sections ↔
      s ∈ t.sections ∨ s = ⟨t.nextIndex, kind, content, false⟩ := by
  simp [push]

theorem newest_push (t : Task) (kind : SectionKind) (content : String) :
    (t.push kind content).newest =
      if kind.asks then some ⟨t.nextIndex, kind, content, false⟩ else t.newest := by
  cases hasks : kind.asks <;> simp [newest, push, hasks]

@[simp] theorem decisionFor_push (t : Task) (kind : SectionKind) (content : String) (i : Nat) :
    (t.push kind content).decisionFor i = t.decisionFor i := rfl

@[simp] theorem decisionFor_modifySection (t : Task) (i : Nat) (f : Section → Section) (j : Nat) :
    (t.modifySection i f).decisionFor j = t.decisionFor j := rfl

theorem pending_congr {r r' : Section} (hkind : r'.kind = r.kind) (hindex : r'.index = r.index) :
    t.pending r' = t.pending r := by
  simp [pending, hkind, hindex]

-- ---------------------------------------------------------------------------
-- When a step keeps the promise
-- ---------------------------------------------------------------------------

/-- The text does not pass for an answer to the latest section, if that is a question. -/
def Unforged (t : Task) (content : String) : Prop :=
  ∀ r, t.newest = some r → r.kind = .question → startsWith content (marker r.index) = false

/-- If the latest section that asks is this one, nothing else is open. -/
def LastOpen (t : Task) (index : Nat) (kind : SectionKind) : Prop :=
  ∀ r, t.newest = some r → r.index = index → r.kind = kind →
    ∀ s ∈ t.sections, t.isOpen s = true → s.index = index

def AppendsOrderly (t : Task) (kind : SectionKind) (content : String) : Prop :=
  (kind = .question → t.hasAnswer t.nextIndex = false ∧
    startsWith content (marker t.nextIndex) = false) ∧
    (kind.asks = false → t.HasOpen → t.Unforged content)

/-- A cut behind which the latest section that asks is resolved by what is before it. -/
def ForksOrderly (t : Task) (upTo : Nat) : Prop :=
  ∀ r, (t.fork t.id upTo).newest = some r → (t.fork t.id upTo).pending r = false →
    ∀ s ∈ t.sections, s.index ≤ upTo → t.isOpen s = false

theorem Numbered.decisionFor_nextIndex (h : t.Numbered) : t.decisionFor t.nextIndex = none := by
  cases hd : t.decisionFor t.nextIndex with
  | none => rfl
  | some d =>
    obtain ⟨s, hs, -⟩ := h.decided _ d hd
    have hlt := (List.getElem?_eq_some_iff.mp hs).1
    exact absurd hlt (h.next ▸ Nat.lt_irrefl _)

theorem Numbered.hasOpen_push (h : t.Numbered) (kind : SectionKind) (content : String) :
    (t.push kind content).HasOpen ↔ kind.asks = true ∨ t.HasOpen := by
  have hnew : t.isOpen ⟨t.nextIndex, kind, content, false⟩ = kind.asks := by
    cases kind <;> simp [isOpen, SectionKind.asks, h.decisionFor_nextIndex]
  constructor
  · rintro ⟨s, hs, hopen⟩
    obtain hold | rfl := mem_push.mp hs
    · exact .inr ⟨s, hold, hopen⟩
    · exact .inl (hnew ▸ hopen)
  · rintro (hasks | ⟨s, hs, hopen⟩)
    · exact ⟨_, mem_push.mpr (.inr rfl), hnew.trans hasks⟩
    · exact ⟨s, mem_push.mpr (.inl hs), hopen⟩

theorem blocks_text_iff {t' : Task} (hb : t.Blocks) (content : String)
    (hopen : t'.HasOpen ↔ t.HasOpen) (hblocked : ∀ r, t.newest = some r → t.pending r = true →
      (t'.isBlocked = true ↔ ¬ r.Passes content)) :
    t'.Blocks ↔ (t.HasOpen → t.Unforged content) := by
  rw [blocks_iff, hopen]
  refine forall_congr' fun hany => ?_
  obtain ⟨r, hr, hpending⟩ := t.isBlocked_iff.mp (hb.blocked hany)
  rw [hblocked r hr hpending, Section.Passes, not_and, Bool.not_eq_true]
  constructor
  · intro hunforged r' hr'
    obtain rfl : r = r' := Option.some.inj (hr.symm.trans hr')
    exact hunforged
  · exact fun hunforged => hunforged r hr

theorem Numbered.push_blocks_iff (h : t.Numbered) (hb : t.Blocks) (kind : SectionKind)
    (content : String) : (t.push kind content).Blocks ↔ t.AppendsOrderly kind content := by
  cases hasks : kind.asks with
  | true =>
    have hopen : (t.push kind content).HasOpen := (h.hasOpen_push kind content).mpr (.inl hasks)
    rw [blocks_iff, isBlocked, newest_push, if_pos hasks, AppendsOrderly]
    have hnone : (t.push kind content).decisionFor t.nextIndex = none := h.decisionFor_nextIndex
    obtain rfl | rfl := (kind.asks_iff).mp hasks
    · exact iff_of_true (fun _ => by simp [pending, hnone]) ⟨nofun, nofun⟩
    · simp [hopen, pending, hasAnswer_push, SectionKind.asks]
  | false =>
    have hopen : (t.push kind content).HasOpen ↔ t.HasOpen := by simp [h.hasOpen_push, hasks]
    have hnot : kind ≠ .question := by rintro rfl; cases hasks
    rw [AppendsOrderly, and_iff_right (fun hkind => absurd hkind hnot)]
    refine (blocks_text_iff hb content hopen fun r hr hpending => ?_).trans
      (by simp [hasks])
    rw [isBlocked, newest_push, hasks, if_neg Bool.false_ne_true, hr, Option.any_some]
    exact pending_next_iff hpending rfl fun hfalse => by simp [hasAnswer_push, hfalse]

theorem Numbered.mutate_blocks_iff (h : t.Numbered) (hb : t.Blocks) {i : Nat} {s : Section}
    (hs : t.section? i = some s) (content : String) :
    (t.modifySection i fun s => { s with content }).Blocks ↔ (t.HasOpen → t.Unforged content) := by
  have hmild := (mild_content content).atIndex i
  have hopen : ∀ r, (t.modifySection i fun s => { s with content }).isOpen
      (atIndex i (fun s => { s with content }) r) = t.isOpen r := by
    intro r
    have hclosed : (atIndex i (fun s => { s with content }) r).closed = r.closed := by
      unfold atIndex
      split <;> rfl
    simp [isOpen, hmild.kind, hmild.index, hclosed]
  refine blocks_text_iff hb content ?_ fun r hr hpending => ?_
  · simp [HasOpen, h.mem_modifySection, hopen]
  · rw [isBlocked, h.newest_modifySection (mild_content content), hr, Option.map_some,
      Option.any_some, pending_congr (hmild.kind r) (hmild.index r)]
    exact pending_next_iff hpending rfl fun hfalse => Bool.eq_iff_iff.mp
      (any_modify_of_none hfalse (getElem?_findIdx hs) fun s => { s with content })

theorem blocks_resolved_iff {t' : Task} (hb : t.Blocks) {i : Nat} {kind : SectionKind}
    (hopen : t'.HasOpen ↔ ∃ s ∈ t.sections, t.isOpen s = true ∧ s.index ≠ i)
    (hblocked : ∀ r, t.newest = some r → t.pending r = true →
      (t'.isBlocked = true ↔ ¬ (r.index = i ∧ r.kind = kind))) :
    t'.Blocks ↔ t.LastOpen i kind := by
  rw [blocks_iff, hopen]
  constructor
  · intro h r hr hindex hkind s hs hsopen
    by_contra hne
    obtain ⟨r', hr', hpending⟩ := t.isBlocked_iff.mp (hb.blocked ⟨s, hs, hsopen⟩)
    obtain rfl : r = r' := Option.some.inj (hr.symm.trans hr')
    exact (hblocked r hr hpending).mp (h ⟨s, hs, hsopen, hne⟩) ⟨hindex, hkind⟩
  · rintro hlast ⟨s, hs, hsopen, hne⟩
    obtain ⟨r, hr, hpending⟩ := t.isBlocked_iff.mp (hb.blocked ⟨s, hs, hsopen⟩)
    exact (hblocked r hr hpending).mpr fun h => hne (hlast r hr h.1 h.2 s hs hsopen)

theorem Numbered.eq_of_section? (h : t.Numbered) {i : Nat} {s r : Section} (hs : t.section? i = some s)
    (hr : r ∈ t.sections) (hindex : r.index = i) : r = s := by
  rw [h.section?_eq, ← hindex, h.index_of_mem hr] at hs
  exact Option.some.inj hs

theorem Numbered.decide_blocks_iff (h : t.Numbered) (hb : t.Blocks) {i : Nat} {s : Section}
    (hs : t.section? i = some s) (hkind : s.kind = .approval) (d : Decision) :
    (t.decided i d).Blocks ↔ t.LastOpen i .approval := by
  have hmild := mild_close.atIndex i
  have hmem : ∀ r, r ∈ (t.decided i d).sections ↔
      ∃ r' ∈ t.sections, atIndex i (fun s => { s with closed := true }) r' = r :=
    h.mem_modifySection (fun s => { s with closed := true }) i
  refine blocks_resolved_iff hb ?_ fun r hr hpending => ?_
  · have hopen : ∀ r ∈ t.sections, (t.decided i d).isOpen
        (atIndex i (fun s => { s with closed := true }) r) = true ↔ t.isOpen r = true ∧ r.index ≠ i := by
      intro r hr
      by_cases hindex : r.index = i
      · obtain rfl := h.eq_of_section? hs hr hindex
        simp [isOpen, hmild.kind, hmild.index, hkind, decisionFor_decided, hindex]
      · simp [isOpen, atIndex, decisionFor_decided, hindex]
    simp only [HasOpen, hmem, exists_exists_and_eq_and]
    exact exists_congr fun r => and_congr_right (hopen r)
  · have hnewest : (t.decided i d).newest =
        some (atIndex i (fun s => { s with closed := true }) r) := by
      have hmap := h.newest_modifySection mild_close i
      rwa [hr] at hmap
    rw [isBlocked, hnewest, Option.any_some, pending_congr (hmild.kind r) (hmild.index r)]
    by_cases hindex : r.index = i
    · obtain rfl := h.eq_of_section? hs (mem_of_newest hr) hindex
      simp [pending, hkind, decisionFor_decided, hindex]
    · have hdecision : (t.decided i d).decisionFor r.index = t.decisionFor r.index :=
        (t.decisionFor_decided i d r.index).trans (if_neg hindex)
      have hanswer : (t.decided i d).hasAnswer r.index = t.hasAnswer r.index :=
        t.hasAnswer_modify_close i r.index
      have hkept : (t.decided i d).pending r = true ↔ ¬ (r.kind = .question ∧ False) :=
        pending_next_iff hpending hdecision fun hfalse => by simp [hanswer, hfalse]
      exact iff_of_true (hkept.mpr fun h => h.2) fun h => hindex h.1

theorem Numbered.hasOpen_close_question (h : t.Numbered) {i : Nat} {s : Section}
    (hs : t.section? i = some s) (hkind : s.kind = .question) :
    (t.modifySection i fun s => { s with closed := true }).HasOpen ↔
      ∃ r ∈ t.sections, t.isOpen r = true ∧ r.index ≠ i := by
  have hopen : ∀ r ∈ t.sections, (t.modifySection i fun s => { s with closed := true }).isOpen
      (atIndex i (fun s => { s with closed := true }) r) = true ↔ t.isOpen r = true ∧ r.index ≠ i := by
    intro r hr
    by_cases hindex : r.index = i
    · obtain rfl := h.eq_of_section? hs hr hindex
      simp [isOpen, atIndex, hindex, hkind]
    · simp [isOpen, atIndex, hindex]
  simp only [HasOpen, h.mem_modifySection, exists_exists_and_eq_and]
  exact exists_congr fun r => and_congr_right (hopen r)

theorem Numbered.answer_blocks_iff (h : t.Numbered) (hb : t.Blocks) {i : Nat} {s : Section}
    (hs : t.section? i = some s) (hkind : s.kind = .question) (text : String) :
    (t.answered i text).Blocks ↔ t.LastOpen i .question := by
  have hmild := mild_close.atIndex i
  have hpush := h.push .result (answerText i text)
  have hfound := section?_push_of_some hs .result (answerText i text)
  refine blocks_resolved_iff hb ?_ fun r hr hpending => ?_
  · rw [answered, hpush.hasOpen_close_question hfound hkind]
    constructor
    · rintro ⟨r, hr, hopen, hne⟩
      obtain hold | rfl := mem_push.mp hr
      · exact ⟨r, hold, hopen, hne⟩
      · cases hopen
    · rintro ⟨r, hr, hopen, hne⟩
      exact ⟨r, mem_push.mpr (.inl hr), hopen, hne⟩
  · have hnewest : (t.answered i text).newest =
        some (atIndex i (fun s => { s with closed := true }) r) := by
      have hmap := hpush.newest_modifySection mild_close i
      rwa [newest_push, if_neg (by decide), hr] at hmap
    have hkept : (t.answered i text).pending r = true ↔ ¬ (r.kind = .question ∧ i = r.index) :=
      pending_next_iff hpending rfl fun hfalse => by simp [hasAnswer_answered, hfalse]
    rw [isBlocked, hnewest, Option.any_some, pending_congr (hmild.kind r) (hmild.index r), hkept,
      and_comm, eq_comm]

theorem Numbered.fork_blocks_iff (id : TaskId) (upTo : Nat) :
    (t.fork id upTo).Blocks ↔ t.ForksOrderly upTo := by
  have hopen : (t.fork id upTo).HasOpen ↔ ∃ s ∈ t.sections, s.index ≤ upTo ∧ t.isOpen s = true := by
    have hsame : ∀ s : Section, s.index ≤ upTo → (t.fork id upTo).isOpen s = t.isOpen s := by
      intro s hs
      simp [isOpen, decisionFor_fork, hs]
    constructor
    · rintro ⟨s, hs, ho⟩
      obtain ⟨hmem, hle⟩ := List.mem_filter.mp hs
      have hle' : s.index ≤ upTo := by simpa using hle
      exact ⟨s, hmem, hle', hsame s hle' ▸ ho⟩
    · rintro ⟨s, hmem, hle, ho⟩
      exact ⟨s, List.mem_filter.mpr ⟨hmem, by simpa using hle⟩, (hsame s hle).trans ho⟩
  rw [blocks_iff]
  constructor
  · intro h r hr hresolved s hs hle
    by_contra ho
    obtain ⟨r', hr', hpending⟩ := (isBlocked_iff _).mp (h (hopen.mpr ⟨s, hs, hle, by simpa using ho⟩))
    obtain rfl : r = r' := Option.some.inj (hr.symm.trans hr')
    exact absurd (hpending.symm.trans hresolved) Bool.true_eq_false.mp
  · intro horderly hany
    obtain ⟨r, hr⟩ := newest_of_hasOpen hany
    obtain ⟨s, hs, hle, ho⟩ := hopen.mp hany
    refine (isBlocked_iff _).mpr ⟨r, hr, ?_⟩
    cases hpending : (t.fork id upTo).pending r with
    | true => rfl
    | false => simp [horderly r hr hpending s hs hle] at ho

end Task

-- ---------------------------------------------------------------------------
-- Runs
-- ---------------------------------------------------------------------------

/-- A call, or the run goes on with a fork. -/
inductive Step
  | call (call : Call)
  | fork (id : TaskId) (upTo : Nat)

namespace Step

def next (t : Task) : Step → Task
  | call c => c.next t
  | fork id upTo => t.fork id upTo

/-- The step does not resolve the latest section that asks while another is open. -/
def Orderly (t : Task) : Step → Prop
  | call (.append kind content) => t.AppendsOrderly kind content
  | call (.mutateContent i content) =>
    ∀ s, t.section? i = some s → s.closed = false → t.HasOpen → t.Unforged content
  | call (.decide i ..) => t.LastOpen i .approval
  | call (.answer i _) => t.LastOpen i .question
  | fork _ upTo => t.ForksOrderly upTo

theorem numbered {t : Task} (h : t.Numbered) (step : Step) : (step.next t).Numbered := by
  cases step with
  | call c => exact h.next_call c
  | fork id upTo => exact h.fork id upTo

theorem orderly_of_refused {t : Task} (h : t.Numbered) {c : Call} (hrefused : c.Refused t) :
    (call c).Orderly t := by
  have hfound : ∀ {i : Nat} {r : Section}, t.newest = some r → r.index = i → t.section? i = some r := by
    rintro i r hr rfl
    rw [h.section?_eq, h.index_of_mem (Task.mem_of_newest hr)]
  cases c with
  | append => exact hrefused.elim
  | mutateContent i content =>
    intro s hs hopen
    rw [hrefused s hs] at hopen
    cases hopen
  | decide i decision actor atUnixMs =>
    exact fun r hr hindex hkind => absurd hkind (hrefused r (hfound hr hindex))
  | answer i text => exact fun r hr hindex hkind => absurd hkind (hrefused r (hfound hr hindex))

theorem call_blocks_iff {t : Task} (h : t.Numbered) (hb : t.Blocks) (c : Call) :
    (c.next t).Blocks ↔ (call c).Orderly t := by
  obtain ⟨hdoes, -⟩ | ⟨hsame, hrefused⟩ := c.next_cases t
  · generalize c.next t = t' at hdoes ⊢
    cases hdoes with
    | append => exact h.push_blocks_iff hb _ _
    | @mutateContent i s content hs hopen =>
      rw [h.mutate_blocks_iff hb hs]
      exact ⟨fun hunforged _ _ _ => hunforged, fun hunforged => hunforged s hs hopen⟩
    | decide hs hkind => exact h.decide_blocks_iff hb hs hkind _
    | answer hs hkind => exact h.answer_blocks_iff hb hs hkind _
  · rw [hsame]
    exact iff_of_true hb (orderly_of_refused h hrefused)

/-- A step keeps the promise exactly when it is orderly. -/
theorem blocks_iff {t : Task} (h : t.Numbered) (hb : t.Blocks) (step : Step) :
    (step.next t).Blocks ↔ step.Orderly t := by
  cases step with
  | call c => exact call_blocks_iff h hb c
  | fork id upTo => exact Task.Numbered.fork_blocks_iff id upTo

end Step

/-- All along a run a task with anything open is blocked exactly when each step of the run is
orderly. -/
theorem blocks_along_iff (id : TaskId) (steps : List Step) :
    (∀ pre, pre <+: steps → (pre.foldl Step.next (.new id)).Blocks) ↔
      AllAlong Step.next (fun t step => step.Orderly t) (.new id) steps := by
  have hnew : (Task.new id).Blocks := by
    rw [Task.blocks_iff]
    rintro ⟨s, hs, -⟩
    cases hs
  exact holds_along_iff (A := fun _ => True) (fun _ step h => step.numbered h)
    (fun _ step _ h hb => step.blocks_iff h hb) (Task.numbered_new id) hnew fun _ _ => trivial

/-- Two approvals, the later one decided: the earlier one blocks nothing. -/
theorem older_approval_passes :
    let t := [Step.call (.append .approval "delete the branch?"), .call (.append .approval "push?"),
      .call (.decide 1 .approved "user" 0)].foldl Step.next (.new ⟨1⟩)
    t.decisionFor 0 = none ∧ ¬ t.Blocks ∧
      (PromptQueue.trySend t).exec ⟨["go ahead"]⟩ = (.ok (some "go ahead"), ⟨[]⟩) := by
  refine ⟨rfl, fun h => ?_, rfl⟩
  have hopen := h.blocked ⟨⟨0, .approval, "delete the branch?", false⟩, List.mem_cons_self, rfl⟩
  exact absurd hopen Bool.false_ne_true

end Rill.Orchestrate
