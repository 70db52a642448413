import Mathlib.Data.List.MinMax
import Mathlib.Order.Basic
import Rill.Lib.Runs
import Rill.Lib.Slots

/-!
# The attention queue

One queue behind every badge and mailbox. Where a target has too many entries,
what goes is the oldest of them that asks for nothing.
-/

namespace Rill.Orchestrate

open Lib

/-- In ascending order. -/
inductive AttentionState
  | completedUnread
  | disconnected
  | failed
  | needsInput
  | approval
  deriving DecidableEq, Repr

namespace AttentionState

def rank : AttentionState → Nat
  | completedUnread => 0
  | disconnected => 1
  | failed => 2
  | needsInput => 3
  | approval => 4

instance : LinearOrder AttentionState :=
  LinearOrder.lift' rank fun a b h => by cases a <;> cases b <;> first | rfl | cases h

def isActionable : AttentionState → Bool
  | needsInput | approval => true
  | _ => false

end AttentionState

structure AttentionEntry where
  id : Nat
  target : String
  state : AttentionState
  origin : String
  seq : Nat
  atUnixMs : UInt64
  read : Bool
  deriving DecidableEq, Repr

structure ViewEvent where
  visible : Bool
  key : Bool
  dwellMs : UInt64
  deriving DecidableEq, Repr

def minDwellMs : UInt64 := 250

structure AttentionQueue where
  entries : List AttentionEntry
  nextId : Nat
  nextSeq : Nat
  capPerTarget : Nat
  deriving DecidableEq, Repr

namespace AttentionQueue

def new (capPerTarget : Nat) : AttentionQueue := ⟨[], 1, 1, capPerTarget⟩

def forTarget (q : AttentionQueue) (target : String) : List AttentionEntry :=
  q.entries.filter fun e => e.target = target

/-- What may go when the target has too many entries. -/
def droppable (target : String) (e : AttentionEntry) : Bool :=
  e.target = target && !e.state.isActionable

def entryFor (q : AttentionQueue) (target : String) (state : AttentionState) (origin : String)
    (atUnixMs : UInt64) : AttentionEntry :=
  ⟨q.nextId, target, state, origin, q.nextSeq, atUnixMs, false⟩

/-- With one entry more, whatever the cap says. -/
def push (q : AttentionQueue) (e : AttentionEntry) : AttentionQueue :=
  { q with
    entries := q.entries ++ [e]
    nextId := q.nextId + 1
    nextSeq := q.nextSeq + 1 }

/-- Without the oldest entry that may go, if the target has too many. -/
def trim (q : AttentionQueue) (target : String) : AttentionQueue :=
  if (q.forTarget target).length > q.capPerTarget then
    { q with entries := q.entries.eraseP (droppable target) }
  else q

def enqueue (q : AttentionQueue) (target : String) (state : AttentionState) (origin : String)
    (atUnixMs : UInt64) : Nat × AttentionQueue :=
  (q.nextId, (q.push (q.entryFor target state origin atUnixMs)).trim target)

def rollup (q : AttentionQueue) (targets : List String) : Option AttentionState :=
  ((q.entries.filter fun e => targets.contains e.target && !e.read).map AttentionEntry.state).max?

def clears (view : ViewEvent) : Bool := view.visible && view.key && view.dwellMs ≥ minDwellMs

def observeView (q : AttentionQueue) (id : Nat) (view : ViewEvent) : AttentionQueue :=
  if clears view then
    { q with entries := q.entries.modify (q.entries.findIdx fun e => e.id = id) fun e =>
        { e with read := true } }
  else q

def badgeCount (q : AttentionQueue) (target : String) : Nat :=
  (q.entries.filter fun e => e.target = target && !e.read).length

def mailboxEntries (q : AttentionQueue) (target : String) : List AttentionEntry :=
  q.entries.filter fun e => e.target = target && !e.read

inductive Call
  | enqueue (target : String) (state : AttentionState) (origin : String) (atUnixMs : UInt64)
  | observeView (id : Nat) (view : ViewEvent)
  deriving DecidableEq, Repr

def Call.next (q : AttentionQueue) : Call → AttentionQueue
  | enqueue target state origin atUnixMs => (q.enqueue target state origin atUnixMs).2
  | observeView id view => q.observeView id view

-- ---------------------------------------------------------------------------
-- One call
-- ---------------------------------------------------------------------------

def unread (e : AttentionEntry) : AttentionEntry := { e with read := false }

@[simp] theorem unread_entryFor (q : AttentionQueue) (target : String) (state : AttentionState)
    (origin : String) (atUnixMs : UInt64) :
    unread (q.entryFor target state origin atUnixMs) = q.entryFor target state origin atUnixMs := rfl

theorem map_unread_observeView (q : AttentionQueue) (id : Nat) (view : ViewEvent) :
    (q.observeView id view).entries.map unread = q.entries.map unread := by
  have hread : ∀ e : AttentionEntry, unread { e with read := true } = unread e := fun _ => rfl
  unfold observeView
  split
  case isTrue => exact map_modify_congr hread _ _
  case isFalse => rfl

theorem droppable_iff {target : String} {e : AttentionEntry} :
    droppable target e = true ↔ e.target = target ∧ e.state.isActionable = false := by
  simp [droppable]

/-- Only what asks for something is there for the target. -/
def AllActionable (q : AttentionQueue) (target : String) : Prop :=
  ∀ e ∈ q.forTarget target, e.state.isActionable = true

theorem allActionable_iff (q : AttentionQueue) (target : String) : q.AllActionable target ↔
    ∀ e ∈ q.entries, e.target = target → e.state.isActionable = true := by
  simp [AllActionable, forTarget]

/-- The target has not too many entries, or none of them may go. -/
def Within (q : AttentionQueue) (target : String) : Prop :=
  (q.forTarget target).length ≤ q.capPerTarget ∨ q.AllActionable target

/-- `q'` is `q` without the oldest entry of the target that asks for nothing. -/
structure Drops (q : AttentionQueue) (target : String) (q' : AttentionQueue) : Prop where
  rest : q' = { q with entries := q'.entries }
  dropped : ∃ older e newer, q.entries = older ++ e :: newer ∧ q'.entries = older ++ newer ∧
    e.target = target ∧ e.state.isActionable = false ∧
    ∀ x ∈ older, x.target = target → x.state.isActionable = true

/-- Nothing goes while the target is within its bounds, and else one entry. -/
theorem trim_cases (q : AttentionQueue) (target : String) :
    (q.Within target ∧ q.trim target = q) ∨
      (¬ q.Within target ∧ q.Drops target (q.trim target)) := by
  have hnone : (∀ e ∈ q.entries, ¬ droppable target e = true) ↔ q.AllActionable target := by
    simp [allActionable_iff, droppable_iff]
  by_cases hlen : (q.forTarget target).length > q.capPerTarget
  · have htrim : q.trim target = { q with entries := q.entries.eraseP (droppable target) } := if_pos hlen
    have hwithin : q.Within target ↔ q.AllActionable target := or_iff_right (Nat.not_le.mpr hlen)
    rw [htrim, hwithin]
    by_cases hall : q.AllActionable target
    · refine .inl ⟨hall, ?_⟩
      rw [List.eraseP_of_forall_not (hnone.mpr hall)]
    · refine .inr ⟨hall, rfl, ?_⟩
      obtain hsame | ⟨e, older, newer, holder, he, hsplit, herase⟩ :=
        List.exists_or_eq_self_of_eraseP (droppable target) q.entries
      · exact absurd (hnone.mp (List.eraseP_eq_self_iff.mp hsame)) hall
      · obtain ⟨htarget, hstate⟩ := droppable_iff.mp he
        refine ⟨older, e, newer, hsplit, herase, htarget, hstate, fun x hx hxtarget => ?_⟩
        by_contra hxstate
        exact holder x hx (droppable_iff.mpr ⟨hxtarget, by simpa using hxstate⟩)
  · exact .inl ⟨.inl (Nat.not_lt.mp hlen), if_neg hlen⟩

-- ---------------------------------------------------------------------------
-- What every call keeps
-- ---------------------------------------------------------------------------

structure Sound (q : AttentionQueue) : Prop where
  ordered : q.entries.Pairwise fun a b => a.id < b.id ∧ a.seq < b.seq
  below : ∀ e ∈ q.entries, e.id < q.nextId ∧ e.seq < q.nextSeq
  within : ∀ target, q.Within target

theorem sound_new (capPerTarget : Nat) : (new capPerTarget).Sound :=
  ⟨.nil, nofun, fun _ => .inl (Nat.zero_le _)⟩

section
variable {q q' : AttentionQueue}

theorem within_congr (hentries : q'.entries.map unread = q.entries.map unread)
    (hcap : q'.capPerTarget = q.capPerTarget) (target : String) : q'.Within target ↔ q.Within target := by
  have hlength : ∀ r : AttentionQueue, (r.forTarget target).length =
      ((r.entries.map unread).filter fun e => e.target = target).length := by
    intro r
    rw [List.filter_map, List.length_map]
    rfl
  have hall : ∀ r : AttentionQueue, r.AllActionable target ↔
      ∀ e ∈ r.entries.map unread, e.target = target → e.state.isActionable = true := by
    simp [allActionable_iff, unread]
  rw [Within, Within, hlength, hlength, hall, hall, hentries, hcap]

theorem Sound.of_unread (h : q.Sound) (hentries : q'.entries.map unread = q.entries.map unread)
    (hid : q'.nextId = q.nextId) (hseq : q'.nextSeq = q.nextSeq) (hcap : q'.capPerTarget = q.capPerTarget) :
    q'.Sound where
  ordered := by
    have hmap := h.ordered.map unread (S := fun a b => a.id < b.id ∧ a.seq < b.seq) fun _ _ h => h
    rw [← hentries] at hmap
    exact List.pairwise_map.mp hmap
  below e he := by
    have hmem : unread e ∈ q.entries.map unread := hentries ▸ List.mem_map_of_mem he
    obtain ⟨e', he', hsame⟩ := List.mem_map.mp hmem
    have hlt := h.below e' he'
    have hsameId : (unread e').id = (unread e).id := by rw [hsame]
    have hsameSeq : (unread e').seq = (unread e).seq := by rw [hsame]
    exact ⟨hid ▸ hsameId ▸ hlt.1, hseq ▸ hsameSeq ▸ hlt.2⟩
  within target := (within_congr hentries hcap target).mpr (h.within target)

theorem forTarget_push_of_ne {e : AttentionEntry} {target : String} (h : e.target ≠ target) :
    (q.push e).forTarget target = q.forTarget target := by
  simp [forTarget, push, h]

theorem Drops.forTarget_of_ne {target other : String} (h : q.Drops target q') (hne : other ≠ target) :
    q'.forTarget other = q.forTarget other := by
  obtain ⟨older, e, newer, hsplit, hrest, htarget, -⟩ := h.dropped
  have hgone : ¬ e.target = other := fun heq => hne (heq.symm.trans htarget)
  simp [forTarget, hsplit, hrest, hgone]

theorem Drops.sublist {target : String} (h : q.Drops target q') : q'.entries.Sublist q.entries := by
  obtain ⟨older, e, newer, hsplit, hrest, -⟩ := h.dropped
  rw [hsplit, hrest]
  exact (List.sublist_cons_self e newer).append_left older

theorem Drops.length_forTarget {target : String} (h : q.Drops target q') :
    (q'.forTarget target).length + 1 = (q.forTarget target).length := by
  obtain ⟨older, e, newer, hsplit, hrest, htarget, -⟩ := h.dropped
  simp only [forTarget, hsplit, hrest, List.filter_append, List.filter_cons, htarget, decide_true,
    if_pos, List.length_append, List.length_cons]
  omega

/-- Where all older entries ask for something, it is the new one that goes. -/
theorem allActionable_of_drops {e : AttentionEntry} (hall : q.AllActionable e.target)
    (h : (q.push e).Drops e.target q') : q'.AllActionable e.target := by
  rw [allActionable_iff] at hall ⊢
  obtain ⟨older, d, newer, hsplit, hrest, htarget, hstate, -⟩ := h.dropped
  have hold : d ∉ q.entries := fun hd => by simp [hall d hd htarget] at hstate
  rw [hrest]
  rcases newer.eq_nil_or_concat with rfl | ⟨newer, last, rfl⟩
  · have holder := (List.append_inj' hsplit rfl).1
    rw [List.append_nil, ← holder]
    exact hall
  · rw [List.concat_eq_append, ← List.cons_append, ← List.append_assoc] at hsplit
    have hentries : q.entries = older ++ d :: newer := (List.append_inj' hsplit rfl).1
    exact absurd (hentries ▸ List.mem_append_right older List.mem_cons_self) hold

/-- A queue within its bounds is so again with one entry more, and what must go gone. -/
theorem within_enqueue (hwithin : ∀ target, q.Within target) (e : AttentionEntry) (target : String) :
    ((q.push e).trim e.target).Within target := by
  obtain ⟨hbounds, hsame⟩ | ⟨-, hdrops⟩ := (q.push e).trim_cases e.target
  · rw [hsame]
    by_cases htarget : target = e.target
    · exact htarget ▸ hbounds
    · rw [Within, AllActionable, forTarget_push_of_ne (Ne.symm htarget)]
      exact hwithin target
  · have hcap : ((q.push e).trim e.target).capPerTarget = q.capPerTarget := by
      rw [hdrops.rest]
      rfl
    by_cases htarget : target = e.target
    · subst htarget
      refine (hwithin e.target).imp (fun hle => ?_) fun hall => allActionable_of_drops hall hdrops
      have hlength := hdrops.length_forTarget
      have hpush : ((q.push e).forTarget e.target).length = (q.forTarget e.target).length + 1 := by
        simp [forTarget, push]
      omega
    · rw [Within, AllActionable, hcap, hdrops.forTarget_of_ne htarget,
        forTarget_push_of_ne (Ne.symm htarget)]
      exact hwithin target

theorem Sound.push_trim (h : q.Sound) {e : AttentionEntry} (hid : e.id = q.nextId)
    (hseq : e.seq = q.nextSeq) : ((q.push e).trim e.target).Sound := by
  have hordered : (q.push e).entries.Pairwise fun a b => a.id < b.id ∧ a.seq < b.seq := by
    refine List.pairwise_append.mpr ⟨h.ordered, List.pairwise_singleton _ _, fun a ha b hb => ?_⟩
    obtain rfl := List.mem_singleton.mp hb
    rw [hid, hseq]
    exact h.below a ha
  have hbelow : ∀ a ∈ (q.push e).entries, a.id < (q.push e).nextId ∧ a.seq < (q.push e).nextSeq := by
    intro a ha
    obtain hold | hnew := List.mem_append.mp ha
    · exact (h.below a hold).imp Nat.lt_succ_of_lt Nat.lt_succ_of_lt
    · obtain rfl := List.mem_singleton.mp hnew
      exact ⟨hid ▸ Nat.lt_succ_self _, hseq ▸ Nat.lt_succ_self _⟩
  have hwithin := within_enqueue h.within e
  obtain ⟨-, hsame⟩ | ⟨-, hdrops⟩ := (q.push e).trim_cases e.target
  · rw [hsame] at hwithin ⊢
    exact ⟨hordered, hbelow, hwithin⟩
  · refine ⟨hordered.sublist hdrops.sublist, fun a ha => ?_, hwithin⟩
    rw [hdrops.rest]
    exact hbelow a (hdrops.sublist.mem ha)

theorem observeView_rest (q : AttentionQueue) (id : Nat) (view : ViewEvent) :
    (q.observeView id view).nextId = q.nextId ∧ (q.observeView id view).nextSeq = q.nextSeq ∧
      (q.observeView id view).capPerTarget = q.capPerTarget := by
  unfold observeView
  split
  case isTrue => exact ⟨rfl, rfl, rfl⟩
  case isFalse => exact ⟨rfl, rfl, rfl⟩

theorem Sound.next (h : q.Sound) (call : Call) : (call.next q).Sound := by
  cases call with
  | enqueue target state origin atUnixMs => exact h.push_trim rfl rfl
  | observeView id view =>
    obtain ⟨hid, hseq, hcap⟩ := q.observeView_rest id view
    exact h.of_unread (q.map_unread_observeView id view) hid hseq hcap

theorem mem_trim {e : AttentionEntry} (he : e ∈ q.entries) (hstate : e.state.isActionable = true)
    (target : String) : e ∈ (q.trim target).entries := by
  obtain ⟨-, hsame⟩ | ⟨-, hdrops⟩ := q.trim_cases target
  · rwa [hsame]
  · obtain ⟨older, d, newer, hsplit, hrest, -, hd, -⟩ := hdrops.dropped
    have hne : e ≠ d := by
      rintro rfl
      simp [hstate] at hd
    rw [hsplit] at he
    simpa [hrest, hne] using he

theorem mem_next {e : AttentionEntry} (he : e ∈ q.entries.map unread)
    (hstate : e.state.isActionable = true) (call : Call) : e ∈ (call.next q).entries.map unread := by
  cases call with
  | observeView id view =>
    change e ∈ (q.observeView id view).entries.map unread
    rwa [map_unread_observeView]
  | enqueue target state origin atUnixMs =>
    obtain ⟨e', he', rfl⟩ := List.mem_map.mp he
    have hpush : e' ∈ (q.push (q.entryFor target state origin atUnixMs)).entries :=
      List.mem_append_left _ he'
    exact List.mem_map_of_mem (mem_trim hpush hstate target)

theorem mem_foldl_next {e : AttentionEntry} (he : e ∈ q.entries.map unread)
    (hstate : e.state.isActionable = true) (calls : List Call) :
    e ∈ (calls.foldl Call.next q).entries.map unread := by
  induction calls generalizing q with
  | nil => exact he
  | cons call calls ih => exact ih (mem_next he hstate call)

theorem mem_enqueued (q : AttentionQueue) (target : String) {state : AttentionState}
    (hstate : state.isActionable = true) (origin : String) (atUnixMs : UInt64) :
    q.entryFor target state origin atUnixMs ∈
      (Call.next q (.enqueue target state origin atUnixMs)).entries.map unread := by
  have hpush : q.entryFor target state origin atUnixMs ∈
      (q.push (q.entryFor target state origin atUnixMs)).entries :=
    List.mem_append_right _ List.mem_cons_self
  exact List.mem_map.mpr ⟨_, mem_trim hpush hstate target, rfl⟩

/-- An enqueue drops nothing, or one entry of its target. -/
structure Overflows (q : AttentionQueue) (e : AttentionEntry) (q' : AttentionQueue) : Prop where
  within : (q.push e).Within e.target → q' = q.push e
  beyond : ¬ (q.push e).Within e.target → (q.push e).Drops e.target q'
  others : ∀ target, target ≠ e.target → q'.forTarget target = q.forTarget target

theorem overflows_trim (q : AttentionQueue) (e : AttentionEntry) :
    q.Overflows e ((q.push e).trim e.target) := by
  obtain ⟨hwithin, hsame⟩ | ⟨hnot, hdrops⟩ := (q.push e).trim_cases e.target
  · refine ⟨fun _ => hsame, fun hnot => absurd hwithin hnot, fun target hne => ?_⟩
    rw [hsame, forTarget_push_of_ne hne.symm]
  · refine ⟨fun hwithin => absurd hwithin hnot, fun _ => hdrops, fun target hne => ?_⟩
    rw [hdrops.forTarget_of_ne hne, forTarget_push_of_ne hne.symm]

theorem badgeCount_eq (q : AttentionQueue) (target : String) :
    q.badgeCount target = (q.mailboxEntries target).length := rfl

/-- The rollup is the highest state in the mailboxes. -/
theorem rollup_eq_some_iff (q : AttentionQueue) (targets : List String) (state : AttentionState) :
    q.rollup targets = some state ↔
      (∃ target ∈ targets, ∃ e ∈ q.mailboxEntries target, e.state = state) ∧
        ∀ target ∈ targets, ∀ e ∈ q.mailboxEntries target, e.state ≤ state := by
  rw [rollup, List.max?_eq_some_iff]
  simp only [List.mem_map, List.mem_filter, Bool.and_eq_true, Bool.not_eq_true',
    List.contains_iff_mem, decide_eq_true_eq, mailboxEntries]
  constructor
  · rintro ⟨⟨e, ⟨he, htarget, hread⟩, hstate⟩, hall⟩
    refine ⟨⟨e.target, htarget, e, ⟨he, rfl, hread⟩, hstate⟩, ?_⟩
    rintro _ htargets e' ⟨he', rfl, hread'⟩
    exact hall e'.state ⟨e', ⟨he', htargets, hread'⟩, rfl⟩
  · rintro ⟨⟨_, htargets, e, ⟨he, rfl, hread⟩, hstate⟩, hall⟩
    refine ⟨⟨e, ⟨he, htargets, hread⟩, hstate⟩, ?_⟩
    rintro _ ⟨e', ⟨he', htarget', hread'⟩, rfl⟩
    exact hall e'.target htarget' e' ⟨he', rfl, hread'⟩

theorem rollup_eq_none_iff (q : AttentionQueue) (targets : List String) :
    q.rollup targets = none ↔ ∀ target ∈ targets, q.mailboxEntries target = [] := by
  rw [rollup, List.max?_eq_none_iff]
  simp only [List.map_eq_nil_iff, List.filter_eq_nil_iff, mailboxEntries, Bool.and_eq_true,
    Bool.not_eq_true', List.contains_iff_mem, decide_eq_true_eq]
  constructor
  · rintro h _ htargets e he ⟨rfl, hread⟩
    exact h e he ⟨htargets, hread⟩
  · rintro h e he ⟨htargets, hread⟩
    exact h e.target htargets e he ⟨rfl, hread⟩

end

-- ---------------------------------------------------------------------------
-- Runs
-- ---------------------------------------------------------------------------

/-- What is promised of the queue after calls. -/
structure Keeps (capPerTarget : Nat) (calls : List Call) (q : AttentionQueue) : Prop where
  present : ∀ pre target state origin atUnixMs, state.isActionable = true →
    pre ++ [.enqueue target state origin atUnixMs] <+: calls →
    (pre.foldl Call.next (new capPerTarget)).entryFor target state origin atUnixMs ∈
      q.entries.map unread
  bounded : ∀ target, (q.forTarget target).length ≤ capPerTarget ∨
    ∀ e ∈ q.forTarget target, e.state.isActionable = true
  ordered : q.entries.Pairwise fun a b => a.id < b.id ∧ a.seq < b.seq
  overflows : ∀ target state origin atUnixMs,
    q.Overflows (q.entryFor target state origin atUnixMs) (q.enqueue target state origin atUnixMs).2
  highest : ∀ targets state, q.rollup targets = some state ↔
    (∃ target ∈ targets, ∃ e ∈ q.mailboxEntries target, e.state = state) ∧
      ∀ target ∈ targets, ∀ e ∈ q.mailboxEntries target, e.state ≤ state
  lowest : ∀ targets, q.rollup targets = none ↔ ∀ target ∈ targets, q.mailboxEntries target = []
  badges : ∀ target, q.badgeCount target = (q.mailboxEntries target).length

theorem capPerTarget_next (q : AttentionQueue) (call : Call) :
    (call.next q).capPerTarget = q.capPerTarget := by
  cases call with
  | observeView id view => exact (q.observeView_rest id view).2.2
  | enqueue target state origin atUnixMs =>
    change ((q.push (q.entryFor target state origin atUnixMs)).trim target).capPerTarget = _
    unfold trim
    split <;> rfl

theorem run_keeps (capPerTarget : Nat) (calls : List Call) :
    Keeps capPerTarget calls (calls.foldl Call.next (new capPerTarget)) := by
  have hrun : ∀ calls : List Call, (calls.foldl Call.next (new capPerTarget)).Sound ∧
      (calls.foldl Call.next (new capPerTarget)).capPerTarget = capPerTarget := by
    intro calls
    induction calls using List.reverseRecOn with
    | nil => exact ⟨sound_new capPerTarget, rfl⟩
    | append_singleton calls call ih =>
      rw [List.foldl_concat]
      exact ⟨ih.1.next call, (capPerTarget_next _ call).trans ih.2⟩
  obtain ⟨hsound, hcap⟩ := hrun calls
  refine ⟨?_, fun target => ?_, hsound.ordered, fun target state origin atUnixMs => ?_,
    rollup_eq_some_iff _, rollup_eq_none_iff _, badgeCount_eq _⟩
  · rintro pre target state origin atUnixMs hstate ⟨post, rfl⟩
    rw [List.foldl_append, List.foldl_concat]
    exact mem_foldl_next (mem_enqueued _ target hstate origin atUnixMs) hstate post
  · have hwithin := hsound.within target
    rwa [Within, hcap] at hwithin
  · exact overflows_trim _ _

end AttentionQueue

end Rill.Orchestrate
