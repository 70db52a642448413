import Mathlib.Data.Set.Finite.List
import Rill.Kernel.Containers

/-!
# Closing a container

What `close_node` takes away and what it leaves: the nodes and leaves of one
subtree, and everything else of the kernel.
-/

namespace Rill

open Lib

namespace Kernel

-- ---------------------------------------------------------------------------
-- Leaves terminated
-- ---------------------------------------------------------------------------

theorem Session.terminated_terminate (s : Session) :
    (Session.terminate.exec s).2.terminated = true := by
  rw [Session.terminate, Op.exec_get_bind]
  by_cases hdead : s.terminated = true
  · rw [if_pos hdead]
    exact hdead
  · rw [if_neg hdead]
    rfl

theorem Session.exec_terminate_of_terminated {s : Session} (h : s.terminated = true) :
    Session.terminate.exec s = (.ok (), s) := by
  rw [Session.terminate, Op.exec_get_bind, if_pos h]
  rfl

/-- The leaves of `dead` have been terminated, and the kernel is otherwise as it
was but for the events that say so. -/
structure Terminated (dead : SessionId → Prop) (k k' : Kernel) : Prop where
  next : k'.next = k.next
  ids : k'.ids = k.ids
  ended : ∀ id, dead id → ∃ s, k.session id = some s ∧
    k'.session id = some (Session.terminate.exec s).2 ∧ (Session.terminate.exec s).2.terminated = true
  others : ∀ id, ¬ dead id → k'.session id = k.session id
  events : ∃ added, k'.events = k.events ++ added ∧ ∀ e ∈ added, e.kind = .terminate ∧ dead e.session

theorem exec_terminate {k : Kernel} {id : SessionId} {s : Session} (h : k.session id = some s)
    (hlive : s.terminated = false) : (terminate id).exec k =
      match (Session.terminate.exec s).1 with
      | .ok _ => (.ok (), (k.setSession id (Session.terminate.exec s).2).record id .terminate)
      | .error e => (.error e, k.setSession id (Session.terminate.exec s).2) := by
  have hnot : ¬ s.terminated = true := by simp [hlive]
  rw [terminate, Op.exec_get_bind, h]
  dsimp only
  rw [if_neg hnot, Op.exec_bind, exec_onSession h]
  rcases Session.terminate.exec s with ⟨e | _, t⟩
  · rfl
  · rfl

theorem exec_terminate_of_terminated {k : Kernel} {id : SessionId} {s : Session}
    (h : k.session id = some s) (hdead : s.terminated = true) : (terminate id).exec k = (.ok (), k) := by
  rw [terminate, Op.exec_get_bind, h]
  dsimp only
  rw [if_pos hdead]
  rfl

/-- What a leaf answers is its own session's answer, and no other leaf's. -/
theorem terminate_answer (k : Kernel) (id : SessionId) : ((terminate id).exec k).1 =
    (k.session id).elim (.error .unknownSession) fun s => (Session.terminate.exec s).1 := by
  cases hs : k.session id with
  | none =>
    rw [terminate, Op.exec_get_bind, hs]
    rfl
  | some s =>
    cases hdead : s.terminated with
    | true =>
      rw [exec_terminate_of_terminated hs hdead, Option.elim, Session.exec_terminate_of_terminated hdead]
    | false =>
      rw [exec_terminate hs hdead, Option.elim]
      rcases Session.terminate.exec s with ⟨e | _, t⟩
      · rfl
      · rfl

theorem terminated_one {k : Kernel} {id : SessionId} (h : ((terminate id).exec k).1 = .ok ()) :
    Terminated (· = id) k ((terminate id).exec k).2 := by
  have hanswer := h
  rw [terminate_answer] at hanswer
  cases hs : k.session id with
  | none =>
    rw [hs] at hanswer
    cases hanswer
  | some s =>
    rw [hs, Option.elim] at hanswer
    have hterminated := Session.terminated_terminate s
    cases hdead : s.terminated with
    | true =>
      rw [exec_terminate_of_terminated hs hdead]
      refine ⟨rfl, rfl, ?_, fun _ _ => rfl, [], (List.append_nil _).symm, nofun⟩
      rintro _ rfl
      refine ⟨s, hs, ?_, hterminated⟩
      rw [Session.exec_terminate_of_terminated hdead]
      exact hs
    | false =>
      rw [exec_terminate hs hdead, hanswer]
      have hsessions := session_setSession hs (Session.terminate.exec s).2
      refine ⟨rfl, Table.keys_set _ _ _, ?_, fun j hj => ?_, [⟨k.nextEvent, id, .terminate⟩], rfl, ?_⟩
      · rintro _ rfl
        exact ⟨s, hs, (congrFun hsessions _).trans (Function.update_self _ _ _), hterminated⟩
      · exact (congrFun hsessions j).trans (Function.update_of_ne hj _ _)
      · rintro e he
        obtain rfl := List.mem_singleton.mp he
        exact ⟨rfl, rfl⟩

theorem Terminated.refl (k : Kernel) : Terminated (fun _ => False) k k :=
  ⟨rfl, rfl, nofun, fun _ _ => rfl, [], (List.append_nil _).symm, nofun⟩

theorem Terminated.congr {dead dead' : SessionId → Prop} {k k' : Kernel} (h : Terminated dead k k')
    (hdead : ∀ id, dead id ↔ dead' id) : Terminated dead' k k' := by
  obtain rfl : dead = dead' := funext fun id => propext (hdead id)
  exact h

theorem Terminated.trans {dead₁ dead₂ : SessionId → Prop} {k₁ k₂ k₃ : Kernel}
    (h : Terminated dead₁ k₁ k₂) (k : Terminated dead₂ k₂ k₃) :
    Terminated (fun id => dead₁ id ∨ dead₂ id) k₁ k₃ where
  next := k.next.trans h.next
  ids := k.ids.trans h.ids
  ended id hid := by
    by_cases hfirst : dead₁ id
    · obtain ⟨s, hs, hmid, hdead⟩ := h.ended id hfirst
      refine ⟨s, hs, ?_, hdead⟩
      by_cases hsecond : dead₂ id
      · obtain ⟨t, ht, hlast, -⟩ := k.ended id hsecond
        obtain rfl : (Session.terminate.exec s).2 = t := Option.some.inj (hmid.symm.trans ht)
        rwa [Session.exec_terminate_of_terminated hdead] at hlast
      · exact (k.others id hsecond).trans hmid
    · obtain ⟨s, hs, hlast, hdead⟩ := k.ended id (hid.resolve_left hfirst)
      exact ⟨s, (h.others id hfirst).symm.trans hs, hlast, hdead⟩
  others id hid := (k.others id fun hsecond => hid (.inr hsecond)).trans
    (h.others id fun hfirst => hid (.inl hfirst))
  events := by
    obtain ⟨added₁, hadded₁, hkind₁⟩ := h.events
    obtain ⟨added₂, hadded₂, hkind₂⟩ := k.events
    refine ⟨added₁ ++ added₂, by rw [hadded₂, hadded₁, List.append_assoc], fun e he => ?_⟩
    rcases List.mem_append.mp he with he | he
    · exact (hkind₁ e he).imp id .inl
    · exact (hkind₂ e he).imp id .inr

/-- Where each leaf can be terminated, they all are, one after the other. -/
theorem exec_forM_terminate {k : Kernel} {leaves : List SessionId}
    (h : ∀ id ∈ leaves, ((terminate id).exec k).1 = .ok ()) :
    ∃ k', (leaves.forM terminate).exec k = (.ok (), k') ∧ Terminated (· ∈ leaves) k k' := by
  induction leaves generalizing k with
  | nil => exact ⟨k, rfl, (Terminated.refl k).congr fun id => by simp⟩
  | cons id leaves ih =>
    have hid := h id List.mem_cons_self
    have hone := terminated_one hid
    generalize hrun : (terminate id).exec k = r at hid hone
    obtain ⟨answer, k₁⟩ := r
    obtain rfl : answer = .ok () := hid
    -- A leaf listed again answers as one that is dead already.
    have hrest : ∀ l ∈ leaves, ((terminate l).exec k₁).1 = .ok () := by
      intro l hl
      by_cases hsame : l = id
      · obtain ⟨s, -, hs, hdead⟩ := hone.ended l hsame
        rw [exec_terminate_of_terminated hs hdead]
      · rw [terminate_answer, hone.others l hsame, ← terminate_answer]
        exact h l (List.mem_cons_of_mem id hl)
    obtain ⟨k', hrun', hterminated⟩ := ih hrest
    refine ⟨k', ?_, (hone.trans hterminated).congr fun l => List.mem_cons.symm⟩
    rw [Op.forM_cons, Op.exec_bind_ok hrun, hrun']

/-- Where they all are terminated one after the other, each can be by itself. -/
theorem terminate_of_forM {k : Kernel} {leaves : List SessionId}
    (h : ((leaves.forM terminate).exec k).1 = .ok ()) :
    ∀ id ∈ leaves, ((terminate id).exec k).1 = .ok () := by
  induction leaves generalizing k with
  | nil => exact fun _ => nofun
  | cons id leaves ih =>
    rw [Op.forM_cons, Op.exec_bind] at h
    generalize hrun : (terminate id).exec k = r at h
    obtain ⟨e | _, k₁⟩ := r
    · cases h
    · have hfirst : ((terminate id).exec k).1 = .ok () := congrArg Prod.fst hrun
      have hone := terminated_one hfirst
      rw [hrun] at hone
      intro l hl
      by_cases hsame : l = id
      · exact hsame ▸ hfirst
      · have hlater := ih h l ((List.mem_cons.mp hl).resolve_left hsame)
        rwa [terminate_answer, hone.others l hsame, ← terminate_answer] at hlater

end Kernel

namespace Containers

open Kernel

-- ---------------------------------------------------------------------------
-- A subtree taken out
-- ---------------------------------------------------------------------------

/-- Parent and child links that agree, no node above itself, and each leaf in at most one node. -/
structure Linked (g : Containers) : Prop where
  links : Forest.Links g.parentOf g.childNodes
  leaves : ∀ l p q, l ∈ g.childLeaves p → l ∈ g.childLeaves q → p = q

theorem Tree.linked {g : Containers} (h : g.Tree) : g.Linked := ⟨h.forest.links, h.leaves⟩

/-- `leaf` is referenced in the subtree of `node`. -/
def LeafUnder (g : Containers) (node : NodeId) (leaf : SessionId) : Prop :=
  ∃ p, Ancestor g.parentOf p node ∧ leaf ∈ g.childLeaves p

/-- `g'` is `g` without the subtree of `node` and the entry for it in its parent, the leaves
of the subtree terminated. -/
structure Closed (g : Containers) (node : NodeId) (g' : Containers) : Prop where
  gone : ∀ m, Ancestor g.parentOf m node → g'.node? m = none
  parent : ∀ p n, g.parentOf node = some p → g.node? p = some n → g'.node? p = some (n.unlink node)
  kept : ∀ m, ¬ Ancestor g.parentOf m node → g.parentOf node ≠ some m → g'.node? m = g.node? m
  nextNode : g'.nextNode = g.nextNode
  kernel : Terminated (g.LeafUnder node) g.kernel g'.kernel

theorem node?_removeSubtree (g : Containers) (subtree : List NodeId) (root m : NodeId) :
    (g.removeSubtree subtree root).node? m =
      if m ∈ subtree then none
      else if g.parentOf root = some m then (g.node? m).map (·.unlink root)
      else g.node? m := by
  have hget := Table.get?_foldl_erase subtree
    ((g.parentOf root).elim g fun p => g.modifyNode p fun n => n.unlink root).nodes m
  refine hget.trans ?_
  split
  case isTrue => rfl
  case isFalse =>
    cases hparent : g.parentOf root with
    | none => rfl
    | some p =>
      refine (node?_modifyNode g p m _).trans ?_
      by_cases hm : m = p
      · rw [if_pos hm, if_pos (congrArg some hm.symm)]
      · rw [if_neg hm, if_neg fun h => hm (Option.some.inj h).symm]

theorem beside_removeSubtree (g : Containers) (subtree : List NodeId) (root : NodeId) :
    (g.removeSubtree subtree root).kernel = g.kernel ∧
      (g.removeSubtree subtree root).nextNode = g.nextNode := by
  unfold Containers.removeSubtree
  cases g.parentOf root with
  | none => exact ⟨rfl, rfl⟩
  | some p =>
    dsimp only [Option.elim, modifyNode]
    cases g.node? p with
    | none => exact ⟨rfl, rfl⟩
    | some n => exact ⟨rfl, rfl⟩

theorem Linked.removeSubtree {g : Containers} (h : g.Linked) {root : NodeId} {subtree : List NodeId}
    (hsubtree : ∀ m, m ∈ subtree ↔ Ancestor g.parentOf m root) :
    (g.removeSubtree subtree root).Linked := by
  obtain ⟨hparent, hnodes, -⟩ := views_removeSubtree h.links subtree root
  refine ⟨?_, fun l p q hp hq => ?_⟩
  · rw [hparent, hnodes]
    exact h.links.prunes hsubtree
  · exact h.leaves l p q (mem_childLeaves_removeSubtree h.links hp)
      (mem_childLeaves_removeSubtree h.links hq)

theorem Linked.of_nodes {g g' : Containers} (h : g.Linked) (hnodes : g'.nodes = g.nodes) :
    g'.Linked := by
  obtain ⟨kernel', nodes', nextNode'⟩ := g'
  obtain rfl : nodes' = g.nodes := hnodes
  exact ⟨h.links, h.leaves⟩

theorem Linked.up_wellFounded {g : Containers} (h : g.Linked) : WellFounded (Up g.parentOf) := by
  refine h.links.up_wellFounded ((List.finite_toSet g.nodes.keys).subset fun n hn => ?_)
  obtain ⟨p, hp⟩ := Option.isSome_iff_exists.mp hn
  exact of_decide_eq_true (has_of_parentOf hp)

theorem mem_leavesIn {g : Containers} {subtree : List NodeId} {node : NodeId}
    (hsubtree : ∀ m, m ∈ subtree ↔ Ancestor g.parentOf m node) (leaf : SessionId) :
    leaf ∈ g.leavesIn subtree ↔ g.LeafUnder node leaf := by
  rw [leavesIn, List.mem_flatMap]
  exact exists_congr fun p => and_congr_left' (hsubtree p)

/-- The kernel ends the leaves, and the containers stay as they are beside it. -/
theorem exec_forM_terminateLeaf (leaves : List SessionId) (g : Containers) :
    (leaves.forM terminateLeaf).exec g =
      (((leaves.forM terminate).exec g.kernel).1.mapError .kernel,
        { g with kernel := ((leaves.forM terminate).exec g.kernel).2 }) := by
  induction leaves generalizing g with
  | nil => rfl
  | cons id leaves ih =>
    have hone : (terminateLeaf id).exec g = (((terminate id).exec g.kernel).1.mapError .kernel,
      { g with kernel := ((terminate id).exec g.kernel).2 }) := rfl
    rw [Op.forM_cons, Op.forM_cons, Op.exec_bind, Op.exec_bind, hone]
    rcases (terminate id).exec g.kernel with ⟨e | _, k₁⟩
    · rfl
    · exact ih { g with kernel := k₁ }

theorem exec_closeNode_of_not_has {g : Containers} {node : NodeId} (hnode : g.has node = false)
    (turns : Nat) : (closeNode turns node).exec g = (.error .unknownNode, g) := by
  have hno : (!g.has node) = true := by simpa using hnode
  rw [closeNode, collectSubtree, Op.exec_bind, Op.exec_get_bind, Op.exec_guard_pos hno]

theorem exec_closeNode {g : Containers} {node : NodeId} (hnode : g.has node = true) {turns : Nat}
    {subtree : List NodeId} (hwalk : Forest.walk g.childNodes turns [node] [node] = some subtree) :
    (closeNode turns node).exec g =
      match ((g.leavesIn subtree).forM terminate).exec g.kernel with
      | (.ok _, kernel) => (.ok (), ({ g with kernel } : Containers).removeSubtree subtree node)
      | (.error e, kernel) => (.error (.kernel e), { g with kernel }) := by
  rw [closeNode, Op.exec_bind, exec_collectSubtree hnode, hwalk]
  dsimp only [Option.elim]
  rw [Op.exec_get_bind, Op.exec_bind, exec_forM_terminateLeaf]
  rcases ((g.leavesIn subtree).forM terminate).exec g.kernel with ⟨e | _, kernel⟩
  · rfl
  · rfl

theorem closed_removeSubtree {g : Containers} (h : g.Linked) {node : NodeId} {subtree : List NodeId}
    (hsubtree : ∀ m, m ∈ subtree ↔ Ancestor g.parentOf m node) {kernel : Kernel}
    (hkernel : Terminated (g.LeafUnder node) g.kernel kernel) :
    Closed g node (({ g with kernel } : Containers).removeSubtree subtree node) where
  gone m hm := by
    rw [node?_removeSubtree, if_pos ((hsubtree m).mpr hm)]
  parent p n hp hn := by
    have hstays : p ∉ subtree := fun hmem =>
      h.links.acyclic node (.head' hp ((hsubtree p).mp hmem))
    have hp' : ({ g with kernel } : Containers).parentOf node = some p := hp
    have hn' : ({ g with kernel } : Containers).node? p = some n := hn
    rw [node?_removeSubtree, if_neg hstays, if_pos hp', hn']
    rfl
  kept m hm hp := by
    have hp' : ({ g with kernel } : Containers).parentOf node ≠ some m := hp
    rw [node?_removeSubtree, if_neg fun hmem => hm ((hsubtree m).mp hmem), if_neg hp']
    rfl
  nextNode := (beside_removeSubtree _ subtree node).2
  kernel := by
    rwa [(beside_removeSubtree _ subtree node).1]

/-- A node that is there is closed just where each leaf under it can be terminated, and then
it is gone with all that is under it, and nothing else is. -/
theorem closes_subtree {g : Containers} (h : g.Linked) (node : NodeId) :
    (g.has node = false → ∀ turns, (closeNode turns node).exec g = (.error .unknownNode, g)) ∧
      (g.has node = true → ∃ enough answer g',
        (∀ turns, enough ≤ turns → (closeNode turns node).exec g = (answer, g')) ∧
          (answer = .ok () ↔
            ∀ leaf, g.LeafUnder node leaf → ((terminate leaf).exec g.kernel).1 = .ok ()) ∧
          (answer = .ok () → Closed g node g' ∧ g'.Linked ∧ (g.Tree → g'.Tree))) := by
  refine ⟨fun hnode turns => exec_closeNode_of_not_has hnode turns, fun hnode => ?_⟩
  obtain ⟨enough, subtree, hsubtree, hwalk⟩ := h.links.walk_ends h.up_wellFounded node
  have hleaves : (∀ leaf, g.LeafUnder node leaf → ((terminate leaf).exec g.kernel).1 = .ok ()) ↔
      ∀ leaf ∈ g.leavesIn subtree, ((terminate leaf).exec g.kernel).1 = .ok () :=
    forall_congr' fun leaf => imp_congr_left (mem_leavesIn hsubtree leaf).symm
  have hrun : ∀ turns, enough ≤ turns → _ :=
    fun turns hturns => exec_closeNode hnode (hwalk turns hturns)
  cases hkernel : ((g.leavesIn subtree).forM terminate).exec g.kernel with
  | mk answer kernel =>
    rw [hkernel] at hrun
    cases answer with
    | error e =>
      refine ⟨enough, .error (.kernel e), { g with kernel }, hrun,
        iff_of_false nofun fun hall => ?_, nofun⟩
      obtain ⟨k', hok, -⟩ := exec_forM_terminate (hleaves.mp hall)
      rw [hkernel] at hok
      cases hok
    | ok =>
      have hall := terminate_of_forM (congrArg Prod.fst hkernel)
      obtain ⟨k', hok, hterminated⟩ := exec_forM_terminate hall
      obtain rfl : kernel = k' := congrArg Prod.snd (hkernel.symm.trans hok)
      have hlinked : ({ g with kernel } : Containers).Linked := h.of_nodes rfl
      refine ⟨enough, .ok (), _, hrun, iff_of_true rfl (hleaves.mpr hall),
        fun _ => ⟨?_, ?_, fun htree => ?_⟩⟩
      · exact closed_removeSubtree h hsubtree (hterminated.congr (mem_leavesIn hsubtree))
      · exact hlinked.removeSubtree hsubtree
      · have htree' : ({ g with kernel } : Containers).Tree := htree.of_nodes rfl
        exact htree'.removeSubtree hsubtree

theorem mem_keys_of_childLeaves {g : Containers} {p : NodeId} {l : SessionId} (h : l ∈ g.childLeaves p) :
    p ∈ g.nodes.keys := by
  unfold childLeaves at h
  cases hp : g.node? p with
  | none =>
    rw [hp] at h
    cases h
  | some n => exact of_decide_eq_true (has_iff.mpr ⟨n, hp⟩)

/-- A workspace with a tab that has one live leaf. -/
def tabWithLeaf : Containers :=
  ((attachLeaf ⟨2⟩ ⟨1⟩).exec { workspaceWithTab with
    kernel := (Kernel.new.spawnLeaf (.spawn (.spawn ⟨80, 24, 0, 0⟩ []) false ⟨80, 24, 0, 0⟩)).2 }).2

theorem tree_tabWithLeaf : tabWithLeaf.Tree := by
  have hstep : ∀ (g : Containers) (call : Call) (g' : Containers), g.Tree → Clear g call →
      Takes g call g' → g'.Tree :=
    fun _ _ _ h hclear htakes => (takes_tree_iff h htakes).mpr hclear
  have htree : workspaceWithTab.Tree := runs_workspaceWithTab.invariant hstep (tree_new .new)
  have hbeside : ∀ kernel, ({ workspaceWithTab with kernel } : Containers).Tree :=
    fun _ => htree.of_nodes rfl
  refine (tree_attachLeaf (hbeside _) ⟨2⟩ ⟨1⟩).mpr fun _ _ q hq => ?_
  have hnone : ∀ p ∈ workspaceWithTab.nodes.keys, workspaceWithTab.childLeaves p = [] := by
    decide
  have hq' : (⟨1⟩ : SessionId) ∈ workspaceWithTab.childLeaves q := hq
  rw [hnone q (mem_keys_of_childLeaves hq')] at hq'
  cases hq'

theorem closes_subtree_tab :
    ∃ enough g', (∀ turns, enough ≤ turns → (closeNode turns ⟨2⟩).exec tabWithLeaf = (.ok (), g')) ∧
      Closed tabWithLeaf ⟨2⟩ g' ∧ tabWithLeaf.LeafUnder ⟨2⟩ ⟨1⟩ := by
  have hone : ∀ p ∈ tabWithLeaf.nodes.keys, ∀ l ∈ tabWithLeaf.childLeaves p, l = ⟨1⟩ := by
    decide
  have hends : ((terminate ⟨1⟩).exec tabWithLeaf.kernel).1.toBool = true := by decide
  have hunder : (⟨1⟩ : SessionId) ∈ tabWithLeaf.childLeaves ⟨2⟩ := by decide
  obtain ⟨enough, answer, g', hrun, hanswer, hclosed⟩ :=
    (closes_subtree tree_tabWithLeaf.linked ⟨2⟩).2 (by decide)
  obtain rfl : answer = .ok () := hanswer.mpr fun leaf hleaf => by
    obtain ⟨p, -, hl⟩ := hleaf
    rw [hone p (mem_keys_of_childLeaves hl) leaf hl]
    cases hterminate : ((terminate ⟨1⟩).exec tabWithLeaf.kernel).1 with
    | error e =>
      rw [hterminate] at hends
      cases hends
    | ok => rfl
  exact ⟨enough, g', hrun, (hclosed rfl).1, ⟨2⟩, .refl, hunder⟩

end Containers

end Rill
