import Mathlib.Data.List.Nodup
import Mathlib.Logic.Function.Basic
import Mathlib.Logic.Relation
import Mathlib.Order.WellFoundedSet

/-!
# Forests

Trees that keep each link twice: every node knows its parent, and every node the
list of the nodes below it.
-/

namespace Lib

open Relation

variable {κ : Type}

def Up (parent : κ → Option κ) (a b : κ) : Prop := parent a = some b

abbrev Ancestor (parent : κ → Option κ) : κ → κ → Prop := ReflTransGen (Up parent)

/-- The two copies of the links agree, and no node is above itself. -/
structure Forest (parent : κ → Option κ) (below : κ → List κ) : Prop where
  agree : ∀ n p, parent n = some p ↔ n ∈ below p
  once : ∀ p, (below p).Nodup
  acyclic : ∀ n, ¬ TransGen (Up parent) n n

namespace Forest

variable {parent : κ → Option κ} {below : κ → List κ}

/-- Both copies of the links, where a child may be listed more than once. -/
structure Links (parent : κ → Option κ) (below : κ → List κ) : Prop where
  agree : ∀ n p, parent n = some p ↔ n ∈ below p
  acyclic : ∀ n, ¬ TransGen (Up parent) n n

theorem links (h : Forest parent below) : Links parent below := ⟨h.agree, h.acyclic⟩

theorem empty : Forest (fun _ : κ => none) fun _ => [] where
  agree _ _ := ⟨nofun, nofun⟩
  once _ := .nil
  acyclic n h := by
    obtain ⟨m, hup, -⟩ := TransGen.head'_iff.mp h
    cases hup

-- ---------------------------------------------------------------------------
-- A node with another parent
-- ---------------------------------------------------------------------------

variable [DecidableEq κ]

/-- A way up in the changed forest is one in the old, or leads to the node that moved. -/
theorem ancestor_update {node : κ} {q : Option κ} (h : Ancestor (Function.update parent node q) a b) :
    Ancestor parent a b ∨ Ancestor parent a node := by
  induction h using ReflTransGen.head_induction_on with
  | refl => exact .inl .refl
  | @head a c hup _ ih =>
    by_cases ha : a = node
    · exact .inr (ha ▸ .refl)
    · have hup' : Up parent a c := by
        rwa [Up, Function.update_of_ne ha] at hup
      exact ih.imp (ReflTransGen.head hup') (ReflTransGen.head hup')

/-- The same for a way of at least one link: when it is new it goes on from the new parent. -/
theorem above_update {node : κ} {q : Option κ} (h : TransGen (Up (Function.update parent node q)) a b) :
    TransGen (Up parent) a b ∨
      Ancestor parent a node ∧ ∃ p, q = some p ∧ Ancestor (Function.update parent node q) p b := by
  induction h using TransGen.head_induction_on with
  | @single a hup =>
    by_cases ha : a = node
    · subst ha
      rw [Up, Function.update_self] at hup
      exact .inr ⟨.refl, b, hup, .refl⟩
    · rw [Up, Function.update_of_ne ha] at hup
      exact .inl (.single hup)
  | @head a c hup hrest ih =>
    by_cases ha : a = node
    · subst ha
      rw [Up, Function.update_self] at hup
      exact .inr ⟨.refl, c, hup, hrest.to_reflTransGen⟩
    · have hup' : Up parent a c := by
        rwa [Up, Function.update_of_ne ha] at hup
      exact ih.imp (TransGen.head hup') fun ⟨hnode, hnew⟩ => ⟨.head hup' hnode, hnew⟩

theorem ancestor_of_update {node : κ} (q : Option κ) (h : Ancestor parent a node) :
    Ancestor (Function.update parent node q) a node := by
  induction h using ReflTransGen.head_induction_on with
  | refl => exact .refl
  | @head a c hup _ ih =>
    by_cases ha : a = node
    · exact ha ▸ .refl
    · refine .head ?_ ih
      rwa [Up, Function.update_of_ne ha]

theorem acyclic_update (h : ∀ n, ¬ TransGen (Up parent) n n) {node : κ} {q : Option κ}
    (hq : ∀ p, q = some p → ¬ Ancestor parent p node) (n : κ) :
    ¬ TransGen (Up (Function.update parent node q)) n n := by
  intro hcycle
  obtain hold | ⟨hnode, p, hp, hback⟩ := above_update hcycle
  · exact h n hold
  · exact hq p hp ((ancestor_update hback).elim (fun hpn => hpn.trans hnode) id)

/-- The links down when `node` has been put under `q`, after the nodes that are there. -/
def relink (below : κ → List κ) (node : κ) (q : Option κ) (p : κ) : List κ :=
  (below p).filter (· ≠ node) ++ if q = some p then [node] else []

theorem relinks (h : Forest parent below) {node : κ} {q : Option κ}
    (hq : ∀ p, q = some p → ¬ Ancestor parent p node) :
    Forest (Function.update parent node q) (relink below node q) where
  agree n p := by
    unfold relink
    by_cases hn : n = node
    · subst hn
      rw [Function.update_self]
      split
      case isTrue hqp => simp [hqp]
      case isFalse hqp => simp [hqp]
    · rw [Function.update_of_ne hn, h.agree]
      split
      case isTrue => simp [hn]
      case isFalse => simp [hn]
  once p := by
    unfold relink
    have hfilter : ((below p).filter (· ≠ node)).Nodup := (h.once p).filter _
    split
    case isTrue =>
      exact hfilter.append (List.nodup_singleton _) (List.disjoint_singleton.mpr (by simp))
    case isFalse => rwa [List.append_nil]
  acyclic := acyclic_update h.acyclic hq

-- ---------------------------------------------------------------------------
-- A subtree taken out
-- ---------------------------------------------------------------------------

theorem Links.prunes (h : Links parent below) {root : κ} {gone : List κ}
    (hgone : ∀ m, m ∈ gone ↔ Ancestor parent m root) :
    Links (fun n => if n ∈ gone then none else parent n)
      (fun p => if p ∈ gone then [] else (below p).filter (· ≠ root)) where
  agree n p := by
    have hroot : root ∈ gone := (hgone root).mpr .refl
    constructor
    · intro hn
      split at hn
      case isTrue => cases hn
      case isFalse hstays =>
        have hp : p ∉ gone := fun hp =>
          hstays ((hgone n).mpr (.head hn ((hgone p).mp hp)))
        rw [if_neg hp]
        refine List.mem_filter.mpr ⟨(h.agree n p).mp hn, decide_eq_true fun heq => ?_⟩
        exact hstays (heq ▸ hroot)
    · intro hn
      split at hn
      case isTrue => cases hn
      case isFalse hp =>
        obtain ⟨hbelow, hne⟩ := List.mem_filter.mp hn
        have hup := (h.agree n p).mpr hbelow
        rw [if_neg ?_]
        · exact hup
        · intro hmem
          obtain heq | ⟨c, hc, hrest⟩ := ReflTransGen.cases_head ((hgone n).mp hmem)
          · exact of_decide_eq_true hne heq
          · obtain rfl : p = c := Option.some.inj (hup.symm.trans hc)
            exact hp ((hgone p).mpr hrest)
  acyclic n hcycle := by
    refine h.acyclic n (TransGen.mono (fun a b hup => ?_) n n hcycle)
    dsimp only [Up] at hup
    split at hup
    case isTrue => cases hup
    case isFalse => exact hup

theorem prunes (h : Forest parent below) {root : κ} {gone : List κ}
    (hgone : ∀ m, m ∈ gone ↔ Ancestor parent m root) :
    Forest (fun n => if n ∈ gone then none else parent n)
      (fun p => if p ∈ gone then [] else (below p).filter (· ≠ root)) where
  agree := (h.links.prunes hgone).agree
  once p := by
    split
    case isTrue => exact .nil
    case isFalse => exact (h.once p).filter _
  acyclic := (h.links.prunes hgone).acyclic

-- ---------------------------------------------------------------------------
-- A walk down
-- ---------------------------------------------------------------------------

omit [DecidableEq κ]

/-- Every node met is put out and kept for later, the last one kept being the next. -/
def walk (below : κ → List κ) : Nat → List κ → List κ → Option (List κ)
  | 0, _, _ => none
  | _ + 1, [], out => some out
  | turns + 1, n :: frontier, out =>
    walk below turns ((below n).reverse ++ frontier) (out ++ below n)

theorem walk_add {below : κ → List κ} {turns : Nat} {frontier out out' : List κ}
    (h : walk below turns frontier out = some out') (more : Nat) :
    walk below (turns + more) frontier out = some out' := by
  induction turns generalizing frontier out with
  | zero => cases h
  | succ turns ih =>
    rw [Nat.succ_add]
    cases frontier with
    | nil => exact h
    | cons n frontier => exact ih h

/-- A walk from `root` that is done with the nodes `done`. -/
structure Walking (parent : κ → Option κ) (below : κ → List κ) (root : κ)
    (done frontier out : List κ) : Prop where
  perm : out.Perm (done ++ frontier)
  nodup : out.Nodup
  under : ∀ m ∈ out, Ancestor parent m root
  origin : ∀ m ∈ out, m = root ∨ ∃ p ∈ done, parent m = some p
  closed : ∀ p ∈ done, ∀ c ∈ below p, c ∈ out
  root : root ∈ out

namespace Walking

variable {root n : κ} {done frontier out : List κ}

theorem start (root : κ) : Walking parent below root [] [root] [root] where
  perm := .refl _
  nodup := List.nodup_singleton _
  under m hm := by
    obtain rfl := List.mem_singleton.mp hm
    exact .refl
  origin m hm := .inl (List.mem_singleton.mp hm)
  closed p hp := absurd hp List.not_mem_nil
  root := List.mem_singleton_self _

/-- The nodes below the next one have not been met: only it is their parent. -/
theorem fresh (w : Walking parent below root done (n :: frontier) out) (h : Forest parent below)
    {c : κ} (hc : c ∈ below n) : c ∉ out := by
  have hup := (h.agree c n).mpr hc
  have hn : n ∈ out := w.perm.mem_iff.mpr (List.mem_append_right _ List.mem_cons_self)
  intro hmem
  obtain rfl | ⟨p, hp, hparent⟩ := w.origin c hmem
  · exact h.acyclic c (TransGen.head' hup (w.under n hn))
  · obtain rfl : p = n := Option.some.inj (hparent.symm.trans hup)
    have hnodup : (done ++ p :: frontier).Nodup := w.perm.nodup_iff.mp w.nodup
    exact (List.disjoint_of_nodup_append hnodup) hp List.mem_cons_self

theorem step (w : Walking parent below root done (n :: frontier) out) (h : Forest parent below) :
    Walking parent below root (n :: done) ((below n).reverse ++ frontier) (out ++ below n) where
  perm := by
    have hout : (out ++ below n).Perm (done ++ n :: frontier ++ below n) := w.perm.append_right _
    refine hout.trans ?_
    have hmove : (done ++ n :: frontier ++ below n).Perm (n :: done ++ frontier ++ below n) :=
      (List.perm_middle).append_right _
    refine hmove.trans ?_
    rw [List.append_assoc]
    exact (List.perm_append_comm.trans ((List.reverse_perm _).symm.append_right _)).append_left _
  nodup := w.nodup.append (h.once n) fun m hm hc => w.fresh h hc hm
  under m hm := by
    rcases List.mem_append.mp hm with hold | hnew
    · exact w.under m hold
    · have hn : n ∈ out := w.perm.mem_iff.mpr (List.mem_append_right _ List.mem_cons_self)
      exact .head ((h.agree m n).mpr hnew) (w.under n hn)
  origin m hm := by
    rcases List.mem_append.mp hm with hold | hnew
    · exact (w.origin m hold).imp id fun ⟨p, hp, hup⟩ => ⟨p, List.mem_cons_of_mem _ hp, hup⟩
    · exact .inr ⟨n, List.mem_cons_self, (h.agree m n).mpr hnew⟩
  closed p hp c hc := by
    rcases List.mem_cons.mp hp with rfl | hp
    · exact List.mem_append_right _ hc
    · exact List.mem_append_left _ (w.closed p hp c hc)
  root := List.mem_append_left _ w.root

/-- Where nothing is left to do, everything under `root` has been met. -/
theorem all (w : Walking parent below root done [] out) (h : Forest parent below) (m : κ) :
    m ∈ out ↔ Ancestor parent m root := by
  refine ⟨w.under m, fun hm => ?_⟩
  induction hm using ReflTransGen.head_induction_on with
  | refl => exact w.root
  | @head m p hup _ ih =>
    have hp : p ∈ done := by simpa using w.perm.mem_iff.mp ih
    exact w.closed p hp m ((h.agree m p).mp hup)

end Walking

/-- A walk of a forest ends, and has met every node under its root once. `N` bounds how many
there are. -/
theorem walk_ends (h : Forest parent below) {root : κ} {N : Nat}
    (hfinite : ∀ l : List κ, l.Nodup → (∀ m ∈ l, Ancestor parent m root) → l.length ≤ N)
    {turns : Nat} (hturns : N < turns) :
    ∃ out, walk below turns [root] [root] = some out ∧ out.Nodup ∧
      ∀ m, m ∈ out ↔ Ancestor parent m root := by
  have hwalk : ∀ (turns : Nat) (done frontier out : List κ),
      Walking parent below root done frontier out → N < turns + done.length →
        ∃ out', walk below turns frontier out = some out' ∧ out'.Nodup ∧
          ∀ m, m ∈ out' ↔ Ancestor parent m root := by
    intro turns
    induction turns with
    | zero =>
      intro done frontier out w hlt
      have hlen := hfinite out w.nodup w.under
      rw [w.perm.length_eq, List.length_append] at hlen
      omega
    | succ turns ih =>
      intro done frontier out w hlt
      cases frontier with
      | nil => exact ⟨out, rfl, w.nodup, w.all h⟩
      | cons n frontier =>
        refine ih (n :: done) _ _ (w.step h) ?_
        rw [List.length_cons]
        omega
  exact hwalk turns [] [root] [root] (.start root) (by simpa using hturns)

theorem walk_eq_some (h : Forest parent below) {root : κ} {N : Nat}
    (hfinite : ∀ l : List κ, l.Nodup → (∀ m ∈ l, Ancestor parent m root) → l.length ≤ N)
    {turns : Nat} {out : List κ} (hout : walk below turns [root] [root] = some out) :
    out.Nodup ∧ ∀ m, m ∈ out ↔ Ancestor parent m root := by
  obtain ⟨out', hwalk, hnodup, hmem⟩ :=
    h.walk_ends hfinite (Nat.lt_add_left turns (Nat.lt_succ_self N))
  obtain rfl : out = out' := Option.some.inj ((walk_add hout (N + 1)).symm.trans hwalk)
  exact ⟨hnodup, hmem⟩

-- ---------------------------------------------------------------------------
-- A walk where children may be listed more than once
-- ---------------------------------------------------------------------------

/-- Where no node is above itself and finitely many have a parent, every way down ends. -/
theorem Links.up_wellFounded (h : Links parent below) (hfinite : {n | (parent n).isSome}.Finite) :
    WellFounded (Up parent) := by
  have horder : IsStrictOrder κ (TransGen (Up parent)) :=
    { irrefl := h.acyclic, trans := fun _ _ _ => TransGen.trans }
  refine Subrelation.wf TransGen.single ⟨fun a => ?_⟩
  refine (Set.WellFoundedOn.acc_iff_wellFoundedOn.out 0 2).mpr (Set.Finite.wellFoundedOn ?_)
  refine hfinite.subset fun b hb => ?_
  obtain ⟨c, hbc, -⟩ := TransGen.head'_iff.mp hb
  obtain ⟨d, hup, -⟩ := TransGen.head'_iff.mp hbc
  exact Option.isSome_iff_exists.mpr ⟨d, hup⟩

/-- The walk is through with a node and all under it before it goes on with the rest. -/
theorem Links.walk_under (h : Links parent below) (hwf : WellFounded (Up parent)) (n : κ) :
    ∃ steps met, (∀ m, m ∈ met ↔ TransGen (Up parent) m n) ∧ ∀ turns frontier out,
      walk below (turns + steps) (n :: frontier) out = walk below turns frontier (out ++ met) := by
  induction n using hwf.induction with
  | _ n ih =>
    -- The nodes below `n` one after the other, each with what is under it.
    have hlist : ∀ l : List κ, (∀ c ∈ l, Up parent c n) → ∃ steps met,
        (∀ m, m ∈ met ↔ ∃ c ∈ l, TransGen (Up parent) m c) ∧ ∀ turns frontier out,
          walk below (turns + steps) (l ++ frontier) out = walk below turns frontier (out ++ met) := by
      intro l hl
      induction l with
      | nil => exact ⟨0, [], by simp, fun turns frontier out => by rw [List.append_nil]; rfl⟩
      | cons c l ihl =>
        obtain ⟨steps₁, met₁, hmet₁, hwalk₁⟩ := ih c (hl c List.mem_cons_self)
        obtain ⟨steps₂, met₂, hmet₂, hwalk₂⟩ := ihl fun d hd => hl d (List.mem_cons_of_mem c hd)
        refine ⟨steps₂ + steps₁, met₁ ++ met₂, fun m => ?_, fun turns frontier out => ?_⟩
        · rw [List.mem_append, hmet₁, hmet₂, List.exists_mem_cons_iff]
        · rw [← Nat.add_assoc, List.cons_append, hwalk₁, hwalk₂, List.append_assoc]
    obtain ⟨steps, met, hmet, hwalk⟩ := hlist (below n).reverse fun c hc =>
      (h.agree c n).mpr (List.mem_reverse.mp hc)
    refine ⟨steps + 1, below n ++ met, fun m => ?_, fun turns frontier out => ?_⟩
    · rw [List.mem_append, hmet]
      constructor
      · rintro (hm | ⟨c, hc, hup⟩)
        · exact .single ((h.agree m n).mpr hm)
        · exact hup.tail ((h.agree c n).mpr (List.mem_reverse.mp hc))
      · intro hup
        cases hup with
        | single hlast => exact .inl ((h.agree m n).mp hlast)
        | tail hup hlast => exact .inr ⟨_, List.mem_reverse.mpr ((h.agree _ n).mp hlast), hup⟩
    · rw [← Nat.add_assoc, walk, hwalk, List.append_assoc]

/-- A walk ends, and has met just the nodes under its root, with however many turns more. -/
theorem Links.walk_ends (h : Links parent below) (hwf : WellFounded (Up parent)) (root : κ) :
    ∃ enough out, (∀ m, m ∈ out ↔ Ancestor parent m root) ∧
      ∀ turns, enough ≤ turns → walk below turns [root] [root] = some out := by
  obtain ⟨steps, met, hmet, hwalk⟩ := h.walk_under hwf root
  refine ⟨steps + 1, root :: met, fun m => ?_, fun turns hturns => ?_⟩
  · rw [List.mem_cons, hmet]
    exact (or_congr_left eq_comm).trans reflTransGen_iff_eq_or_transGen.symm
  · obtain ⟨more, rfl⟩ := Nat.exists_eq_add_of_le hturns
    have hsplit : steps + 1 + more = more + 1 + steps := by omega
    rw [hsplit, hwalk]
    rfl

end Forest

end Lib
