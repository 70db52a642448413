import Rill.Lib.Runs
import Rill.Orchestrate.Persist

/-!
# Numbering

Indices are stored, not positions. That the two agree is kept by every call, by
forks at any cut, and by a restart.
-/

namespace Rill.Orchestrate

open Lib

namespace Task

structure Numbered (t : Task) : Prop where
  index : ∀ (i : Nat) (s : Section), t.sections[i]? = some s → s.index = i
  next : t.nextIndex = t.sections.length
  decided : ∀ (i : Nat) (d : Decision), t.decisionFor i = some d →
    ∃ s, t.sections[i]? = some s ∧ s.kind = .approval ∧ s.closed = true

theorem numbered_new (id : TaskId) : (new id).Numbered := ⟨nofun, rfl, nofun⟩

-- ---------------------------------------------------------------------------
-- Finding and changing a section
-- ---------------------------------------------------------------------------

section
variable {t : Task}

theorem Numbered.index_of_mem (h : t.Numbered) {s : Section} (hs : s ∈ t.sections) :
    t.sections[s.index]? = some s := by
  obtain ⟨i, hi⟩ := List.mem_iff_getElem?.mp hs
  rwa [h.index i s hi]

theorem Numbered.section?_eq (h : t.Numbered) (i : Nat) : t.section? i = t.sections[i]? := by
  cases hfind : t.section? i with
  | some s =>
    obtain rfl : s.index = i := by simpa using List.find?_some hfind
    exact (h.index_of_mem (List.mem_of_find?_eq_some hfind)).symm
  | none =>
    cases hget : t.sections[i]? with
    | none => rfl
    | some s =>
      have hnot := List.find?_eq_none.mp hfind s (List.mem_of_getElem? hget)
      simp [h.index i s hget] at hnot

theorem Numbered.findIdx_eq (h : t.Numbered) {i : Nat} {s : Section} (hs : t.sections[i]? = some s) :
    t.sections.findIdx (fun s => s.index = i) = i := by
  obtain ⟨hi, rfl⟩ := List.getElem?_eq_some_iff.mp hs
  rw [List.findIdx_eq hi]
  refine ⟨by simpa using h.index i _ hs, fun j hj => ?_⟩
  have hindex := h.index j _ (List.getElem?_eq_getElem (hj.trans hi))
  simpa [hindex] using Nat.ne_of_lt hj

theorem Numbered.getElem?_modifySection (h : t.Numbered) {i : Nat} {s : Section}
    (hs : t.section? i = some s) (f : Section → Section) (j : Nat) :
    (t.modifySection i f).sections[j]? = if i = j then some (f s) else t.sections[j]? := by
  rw [h.section?_eq] at hs
  rw [modifySection]
  dsimp only
  rw [h.findIdx_eq hs, List.getElem?_modify]
  split
  case isTrue hj =>
    subst hj
    simp [hs]
  case isFalse => simp

end

structure Mild (f : Section → Section) : Prop where
  index : ∀ s, (f s).index = s.index
  kind : ∀ s, (f s).kind = s.kind
  closed : ∀ s, s.closed = true → (f s).closed = true

theorem mild_close : Mild fun s => { s with closed := true } := ⟨fun _ => rfl, fun _ => rfl, fun _ _ => rfl⟩

theorem mild_content (content : String) : Mild fun s => { s with content } :=
  ⟨fun _ => rfl, fun _ => rfl, fun _ h => h⟩

theorem length_modifySection (t : Task) (i : Nat) (f : Section → Section) :
    (t.modifySection i f).sections.length = t.sections.length := List.length_modify ..

-- ---------------------------------------------------------------------------
-- Calls
-- ---------------------------------------------------------------------------

namespace Numbered

variable {t : Task}

theorem push (h : t.Numbered) (kind : SectionKind) (content : String) : (t.push kind content).Numbered where
  index i s hs := by
    simp only [Task.push, List.getElem?_append] at hs
    split at hs
    case isTrue => exact h.index i s hs
    case isFalse hi =>
      have hlast := List.getElem?_eq_some_iff.mp hs
      obtain ⟨hlen, rfl⟩ := hlast
      simp only [List.length_singleton] at hlen
      simp only [List.getElem_singleton, h.next]
      omega
  next := by simp [Task.push, h.next]
  decided i d hd := by
    obtain ⟨s, hs, hkind, hclosed⟩ := h.decided i d hd
    have hi := (List.getElem?_eq_some_iff.mp hs).1
    exact ⟨s, by rwa [Task.push, List.getElem?_append_left hi], hkind, hclosed⟩

theorem modifySection (h : t.Numbered) {i : Nat} {s : Section} (hs : t.section? i = some s)
    {f : Section → Section} (hf : Mild f) : (t.modifySection i f).Numbered where
  index j r hr := by
    rw [h.getElem?_modifySection hs] at hr
    split at hr
    case isTrue hj =>
      rw [h.section?_eq] at hs
      rw [← Option.some.inj hr, hf.index, h.index i s hs, hj]
    case isFalse => exact h.index j r hr
  next := by
    rw [length_modifySection]
    exact h.next
  decided j d hd := by
    obtain ⟨r, hr, hkind, hclosed⟩ := h.decided j d hd
    rw [h.getElem?_modifySection hs]
    split
    case isTrue hj =>
      rw [h.section?_eq, hj, hr] at hs
      obtain rfl := Option.some.inj hs
      exact ⟨f r, rfl, (hf.kind r).trans hkind, hf.closed r hclosed⟩
    case isFalse => exact ⟨r, hr, hkind, hclosed⟩

theorem decided_of_approval (h : t.Numbered) {i : Nat} {s : Section} (hs : t.section? i = some s)
    (hkind : s.kind = .approval) (d : Decision) : (t.decided i d).Numbered where
  index := (h.modifySection hs mild_close).index
  next := (h.modifySection hs mild_close).next
  decided j d' hd' := by
    have hget : (t.decided i d).decisionFor j = if j = i then some d else t.decisionFor j :=
      t.decisions.get?_put i d j
    have hsection := h.getElem?_modifySection hs (fun s => { s with closed := true }) j
    change ∃ r, (t.modifySection i fun s => { s with closed := true }).sections[j]? = some r ∧ _
    rw [hget] at hd'
    split at hd'
    case isTrue hj =>
      rw [if_pos hj.symm] at hsection
      exact ⟨_, hsection, hkind, rfl⟩
    case isFalse hj => exact (h.modifySection hs mild_close).decided j d' hd'

theorem close (h : t.Numbered) (i : Nat) : ((Task.close i).exec t).2.Numbered := by
  cases hs : t.section? i with
  | none =>
    rw [Task.close, Op.exec_get_bind, hs]
    exact h
  | some s =>
    rw [exec_close hs]
    exact h.modifySection hs mild_close

/-- Each call leaves indices and places together. -/
theorem next_call (h : t.Numbered) (call : Call) : (call.next t).Numbered := by
  obtain ⟨hdoes, -⟩ | ⟨hsame, -⟩ := call.next_cases t
  · generalize call.next t = t' at hdoes
    cases hdoes with
    | append => exact h.push _ _
    | mutateContent hs => exact h.modifySection hs (mild_content _)
    | decide hs hkind => exact h.decided_of_approval hs hkind _
    | answer hs =>
      exact (h.push .result _).modifySection (section?_push_of_some hs _ _) mild_close
  · rwa [hsame]

end Numbered

-- ---------------------------------------------------------------------------
-- Forks and restarts
-- ---------------------------------------------------------------------------

/-- Where indices are places from `n` on, a bound on the index is a number of sections. -/
theorem filter_index_le {l : List Section} {n : Nat}
    (h : ∀ (i : Nat) (s : Section), l[i]? = some s → s.index = n + i) (k : Nat) :
    (l.filter fun s => s.index ≤ k) = l.take (k + 1 - n) := by
  induction l generalizing n with
  | nil => simp
  | cons s l ih =>
    have hs : s.index = n := h 0 s rfl
    have hl : ∀ (i : Nat) (r : Section), l[i]? = some r → r.index = n + 1 + i := fun i r hr => by
      have hr' := h (i + 1) r hr
      omega
    by_cases hk : n ≤ k
    · have hsucc : k + 1 - n = (k + 1 - (n + 1)) + 1 := by omega
      simp [hs, hk, ih hl, hsucc]
    · have hzero : k + 1 - n = 0 := by omega
      have hrest : k + 1 - (n + 1) = 0 := by omega
      simp [hs, hk, ih hl, hzero, hrest]

theorem decisionFor_fork (t : Task) (id : TaskId) (upTo i : Nat) :
    (t.fork id upTo).decisionFor i = if i ≤ upTo then t.decisionFor i else none := by
  simp [decisionFor, Task.fork]

/-- `f` is `t` up to the cut, and goes on from there. -/
structure ForkOf (t : Task) (id : TaskId) (upTo : Nat) (f : Task) : Prop where
  id : f.id = id
  sections : f.sections = t.sections.take (upTo + 1)
  kept : ∀ s, s ∈ f.sections ↔ s ∈ t.sections ∧ s.index ≤ upTo
  decisions : ∀ i, f.decisionFor i = if i ≤ upTo then t.decisionFor i else none
  next : ∀ kind content, ((append kind content).exec f).1 = .ok (min (upTo + 1) t.sections.length)

namespace Numbered

variable {t : Task}

theorem sections_fork (h : t.Numbered) (id : TaskId) (upTo : Nat) :
    (t.fork id upTo).sections = t.sections.take (upTo + 1) :=
  filter_index_le (n := 0) (fun i s hs => by simpa using h.index i s hs) upTo

theorem index_fork (h : t.Numbered) (id : TaskId) (upTo : Nat) {i : Nat} {s : Section}
    (hs : (t.fork id upTo).sections[i]? = some s) : t.sections[i]? = some s ∧ i ≤ upTo := by
  rw [h.sections_fork, List.getElem?_take] at hs
  split at hs
  case isTrue hi => exact ⟨hs, Nat.le_of_lt_succ hi⟩
  case isFalse => cases hs

theorem nextIndex_fork (h : t.Numbered) (id : TaskId) (upTo : Nat) :
    (t.fork id upTo).nextIndex = (t.fork id upTo).sections.length := by
  have hnext : (t.fork id upTo).nextIndex =
      ((t.fork id upTo).sections.getLast?.map fun s => s.index + 1).getD 0 := rfl
  rw [hnext]
  cases hlast : (t.fork id upTo).sections.getLast? with
  | none =>
    rw [List.getLast?_eq_none_iff] at hlast
    rw [hlast]
    rfl
  | some s =>
    rw [List.getLast?_eq_getElem?] at hlast
    have hpos : 0 < (t.fork id upTo).sections.length := by
      have hlt := (List.getElem?_eq_some_iff.mp hlast).1
      omega
    rw [Option.map_some, Option.getD_some, h.index _ s (h.index_fork id upTo hlast).1]
    omega

theorem fork (h : t.Numbered) (id : TaskId) (upTo : Nat) : (t.fork id upTo).Numbered where
  index i s hs := h.index i s (h.index_fork id upTo hs).1
  next := h.nextIndex_fork id upTo
  decided i d hd := by
    rw [decisionFor_fork] at hd
    split at hd
    case isTrue hi =>
      obtain ⟨s, hs, hkind, hclosed⟩ := h.decided i d hd
      refine ⟨s, ?_, hkind, hclosed⟩
      rw [h.sections_fork, List.getElem?_take_of_lt (by omega)]
      exact hs
    case isFalse => cases hd

theorem forkOf (h : t.Numbered) (id : TaskId) (upTo : Nat) : ForkOf t id upTo (t.fork id upTo) where
  id := rfl
  sections := h.sections_fork id upTo
  kept s := by simp [Task.fork]
  decisions := decisionFor_fork t id upTo
  next kind content := by
    rw [exec_append, h.nextIndex_fork, h.sections_fork, List.length_take]

theorem same {t' : Task} (h : t.Numbered) (hsame : Same t t') : t'.Numbered where
  index := by
    rw [hsame.sections]
    exact h.index
  next := by
    rw [hsame.nextIndex, hsame.sections]
    exact h.next
  decided i d hd := by
    rw [hsame.decisions] at hd
    rw [hsame.sections]
    exact h.decided i d hd

end Numbered

end Task

-- ---------------------------------------------------------------------------
-- Any number of tasks
-- ---------------------------------------------------------------------------

inductive Move
  | create (id : TaskId)
  | call (place : Nat) (call : Call)
  | close (place : Nat) (index : Nat)
  | fork (place : Nat) (id : TaskId) (upTo : Nat)
  | restart (place : Nat)

namespace Move

def target : Move → Option Nat
  | create _ | fork .. => none
  | call place _ | close place _ | restart place => some place

/-- One move; a restart persists the task, with any queue and in any order, and restores it. -/
inductive Takes (toml : Toml) (w : List Task) : Move → List Task → Prop
  | create (id : TaskId) : Takes toml w (.create id) (w ++ [.new id])
  | call {place : Nat} {t : Task} (h : w[place]? = some t) (call : Call) :
    Takes toml w (.call place call) (w.set place (call.next t))
  | close {place : Nat} {t : Task} (h : w[place]? = some t) (index : Nat) :
    Takes toml w (.close place index) (w.set place ((Task.close index).exec t).2)
  | fork {place : Nat} {t : Task} (h : w[place]? = some t) (id : TaskId) (upTo : Nat) :
    Takes toml w (.fork place id upTo) (w ++ [t.fork id upTo])
  | restart {place : Nat} {t : Task} (h : w[place]? = some t) (id : TaskId) (q : PromptQueue)
    (order : List (Nat × Decision)) (horder : order.Perm t.decisions.entries) :
    Takes toml w (.restart place)
      (w.set place (restoreTaskAndQueue toml id (persistTaskAndQueue toml t q order)).1)

/-- Only tasks whose integers are below `2 ^ 63` are restarted. -/
def Fits (w : List Task) : Move → Prop
  | restart place => ∀ t, w[place]? = some t → t.Fits
  | create _ | call .. | close .. | fork .. => True

variable {toml : Toml} {w w' : List Task} {move : Move}

theorem Takes.others (h : Takes toml w move w') {i : Nat} {t : Task} (ht : w[i]? = some t)
    (hi : move.target ≠ some i) : w'[i]? = some t := by
  have hlt := (List.getElem?_eq_some_iff.mp ht).1
  cases h with
  | create | fork => rwa [List.getElem?_append_left hlt]
  | call | close | restart =>
    rw [List.getElem?_set_ne fun heq => hi (congrArg some heq)]
    exact ht

theorem Takes.numbered (htoml : toml.Documented) (hw : ∀ t ∈ w, t.Numbered) (hfits : move.Fits w)
    (h : Takes toml w move w') : ∀ t ∈ w', t.Numbered := by
  have hset : ∀ {place : Nat} {t' : Task}, t'.Numbered → ∀ t ∈ w.set place t', t.Numbered := by
    intro place t' ht' t ht
    rcases List.mem_or_eq_of_mem_set ht with hmem | rfl
    · exact hw t hmem
    · exact ht'
  have hadd : ∀ {t' : Task}, t'.Numbered → ∀ t ∈ w ++ [t'], t.Numbered := by
    intro t' ht' t ht
    rcases List.mem_append.mp ht with hmem | hmem
    · exact hw t hmem
    · obtain rfl := List.mem_singleton.mp hmem
      exact ht'
  cases h with
  | create id => exact hadd (Task.numbered_new id)
  | call hplace call => exact hset ((hw _ (List.mem_of_getElem? hplace)).next_call call)
  | close hplace index => exact hset ((hw _ (List.mem_of_getElem? hplace)).close index)
  | fork hplace id upTo => exact hadd ((hw _ (List.mem_of_getElem? hplace)).fork id upTo)
  | restart hplace id q order horder =>
    have hsame := restore_persist_of_fits htoml (hfits _ hplace) q id horder
    exact hset ((hw _ (List.mem_of_getElem? hplace)).same hsame.1)

end Move

/-- However tasks were made, places and indices agree in each of them, only closed approvals have
decisions, a fork is its task up to the cut, and whatever is done to one task changes no other. -/
theorem tasks_numbered {toml : Toml} (htoml : toml.Documented) {w : List Task}
    (hrun : Runs (Move.Takes toml) (fun w move => move.Fits w) [] w) :
    (∀ t ∈ w, t.Numbered ∧ ∀ id upTo, Task.ForkOf t id upTo (t.fork id upTo)) ∧
      ∀ move w', Move.Takes toml w move w' →
        ∀ i t, w[i]? = some t → move.target ≠ some i → w'[i]? = some t := by
  have hnumbered : ∀ t ∈ w, t.Numbered :=
    hrun.invariant (I := fun w : List Task => ∀ t ∈ w, t.Numbered)
      (fun _ _ _ hw hfits htakes => htakes.numbered htoml hw hfits) nofun
  exact ⟨fun t ht => ⟨hnumbered t ht, (hnumbered t ht).forkOf⟩,
    fun move w' htakes i t ht hi => htakes.others ht hi⟩

/-- The fork of a task after its first section, as it is written. -/
def forkPage : Page where
  doc := snapshotDoc ((keptTask.push .approval "sure?").fork ⟨8⟩ 0) ⟨["next step"]⟩ []
  text := "id = 8\n" ++ ("next_index = 1\ndecision = []\nqueue = [\"next step\"]\n\n" ++
    "[[section]]\nindex = 0\nkind = \"prompt\"\ncontent = \"do the thing\"\nclosed = false\n")
  fits := by decide
  starts := by
    rw [String.toList_append]
    rfl

/-- A task with two sections, forked after the first, and the fork restarted. -/
theorem tasks_numbered_fork :
    let toml := formatAt forkPage
    ∃ w, Runs (Move.Takes toml) (fun w move => move.Fits w) [] w ∧
      w[1]? = some (restoreTaskAndQueue toml ⟨8⟩ forkPage.text).1 ∧ ∀ t ∈ w, t.Numbered := by
  intro toml
  let t : Task := keptTask.push .approval "sure?"
  have hcreate : Move.Takes toml [] (.create ⟨7⟩) [.new ⟨7⟩] := .create ⟨7⟩
  have hprompt : Move.Takes toml [.new ⟨7⟩] (.call 0 (.append .prompt "do the thing")) [keptTask] :=
    .call rfl _
  have happroval : Move.Takes toml [keptTask] (.call 0 (.append .approval "sure?")) [t] := .call rfl _
  have hfork : Move.Takes toml [t] (.fork 0 ⟨8⟩ 0) [t, t.fork ⟨8⟩ 0] := .fork rfl ⟨8⟩ 0
  have hrestart : Move.Takes toml [t, t.fork ⟨8⟩ 0] (.restart 1) _ :=
    .restart rfl ⟨8⟩ ⟨["next step"]⟩ [] (.refl _)
  have hfits : Move.Fits [t, t.fork ⟨8⟩ 0] (.restart 1) := by
    rintro _ ⟨⟩
    exact ⟨by decide, by decide, by decide, fun _ _ => nofun⟩
  have hrun : Runs (Move.Takes toml) (fun w move => move.Fits w) [] _ :=
    ((((Relation.ReflTransGen.refl.tail ⟨.create ⟨7⟩, trivial, hcreate⟩).tail
      ⟨.call 0 (.append .prompt "do the thing"), trivial, hprompt⟩).tail
      ⟨.call 0 (.append .approval "sure?"), trivial, happroval⟩).tail
      ⟨.fork 0 ⟨8⟩ 0, trivial, hfork⟩).tail ⟨.restart 1, hfits, hrestart⟩
  have hwritten : persistTaskAndQueue toml (t.fork ⟨8⟩ 0) ⟨["next step"]⟩ [] = forkPage.text :=
    congrArg (Option.getD · "") (toStringPretty_formatAt forkPage)
  rw [hwritten] at hrun
  exact ⟨_, hrun, rfl, fun t ht => ((tasks_numbered (documented_formatAt forkPage) hrun).1 t ht).1⟩

end Rill.Orchestrate
