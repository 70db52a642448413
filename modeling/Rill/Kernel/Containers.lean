import Mathlib.Data.List.Perm.Subperm
import Rill.Kernel.Graph
import Rill.Lib.Forest
import Rill.Lib.Runs

/-!
# The container tree

Workspaces, groups, tabs and splits over the kernel's leaves, linked from parent to
child and back, and which calls keep the two copies of the links a forest.
-/

namespace Rill

open Lib

namespace Kernel

/-- Cold destroy of one leaf, which stays in the table. -/
def terminate (id : SessionId) : Op Kernel Error Unit := do
  match (← get).session id with
  | none => throw .unknownSession
  | some s =>
    if s.terminated then pure ()
    else
      onSession id Session.terminate
      modify fun k => k.record id .terminate

structure NodeId where
  raw : UInt64
  deriving DecidableEq, Repr

inductive NodeKind
  | workspace
  | group
  | tab
  | split
  deriving DecidableEq, Repr

inductive NodeChild
  | node (id : NodeId)
  | leaf (id : SessionId)
  deriving DecidableEq, Repr

def NodeChild.node? : NodeChild → Option NodeId
  | node id => some id
  | leaf _ => none

def NodeChild.leaf? : NodeChild → Option SessionId
  | leaf id => some id
  | node _ => none

structure ContainerNode where
  kind : NodeKind
  parent : Option NodeId
  children : List NodeChild
  deriving DecidableEq, Repr

def ContainerNode.unlink (n : ContainerNode) (id : NodeId) : ContainerNode :=
  { n with children := n.children.filter (· ≠ .node id) }

def ContainerNode.link (n : ContainerNode) (child : NodeChild) : ContainerNode :=
  { n with children := n.children ++ [child] }

namespace ContainerNode

def nodes (n : ContainerNode) : List NodeId := n.children.filterMap NodeChild.node?

def leaves (n : ContainerNode) : List SessionId := n.children.filterMap NodeChild.leaf?

theorem nodes_unlink (n : ContainerNode) (id : NodeId) :
    (n.unlink id).nodes = n.nodes.filter (· ≠ id) := by
  simp only [nodes, unlink]
  induction n.children with
  | nil => rfl
  | cons c l ih =>
    cases c with
    | leaf l => simpa [NodeChild.node?, List.filterMap_cons] using ih
    | node c =>
      by_cases hc : c = id
      · simpa [NodeChild.node?, List.filterMap_cons, hc] using ih
      · simpa [NodeChild.node?, List.filterMap_cons, hc] using ih

theorem leaves_unlink (n : ContainerNode) (id : NodeId) : (n.unlink id).leaves = n.leaves := by
  simp only [leaves, unlink]
  induction n.children with
  | nil => rfl
  | cons c l ih =>
    cases c with
    | leaf l => simpa [NodeChild.leaf?, List.filterMap_cons] using ih
    | node c =>
      by_cases hc : c = id
      · simpa [NodeChild.leaf?, List.filterMap_cons, hc] using ih
      · simpa [NodeChild.leaf?, List.filterMap_cons, hc] using ih

@[simp] theorem nodes_link_node (n : ContainerNode) (id : NodeId) :
    (n.link (.node id)).nodes = n.nodes ++ [id] := List.filterMap_append

@[simp] theorem nodes_link_leaf (n : ContainerNode) (leaf : SessionId) :
    (n.link (.leaf leaf)).nodes = n.nodes :=
  List.filterMap_append.trans (List.append_nil _)

@[simp] theorem leaves_link_node (n : ContainerNode) (id : NodeId) :
    (n.link (.node id)).leaves = n.leaves :=
  List.filterMap_append.trans (List.append_nil _)

@[simp] theorem leaves_link_leaf (n : ContainerNode) (leaf : SessionId) :
    (n.link (.leaf leaf)).leaves = n.leaves ++ [leaf] := List.filterMap_append

end ContainerNode

/-- Why a call has not gone through. A loop of it may also not have come to an end in the
turns it was given. -/
inductive Stop
  | unknownNode
  | kernel (e : Error)
  | running
  deriving DecidableEq, Repr

end Kernel

/-- The kernel with its containers. -/
structure Containers where
  kernel : Kernel
  nodes : Table Kernel.NodeId Kernel.ContainerNode
  nextNode : UInt64

namespace Containers

open Kernel

def new (kernel : Kernel) : Containers := ⟨kernel, .empty, 1⟩

def node? (g : Containers) (id : NodeId) : Option ContainerNode := g.nodes.get? id

def has (g : Containers) (id : NodeId) : Bool := id ∈ g.nodes.keys

/-- Nothing where there is no such node. -/
def modifyNode (g : Containers) (id : NodeId) (f : ContainerNode → ContainerNode) : Containers :=
  match g.node? id with
  | some n => { g with nodes := g.nodes.set id (f n) }
  | none => g

def insertNode (g : Containers) (id : NodeId) (n : ContainerNode) : Containers :=
  { g with nodes := g.nodes.insert id n }

def allocateNodeId : Nat → Op Containers Stop NodeId
  | 0 => throw .running
  | turns + 1 => do
    let g ← get
    modify fun g =>
      { g with nextNode := if g.nextNode = 18446744073709551615 then 1 else g.nextNode + 1 }
    if g.has ⟨g.nextNode⟩ then allocateNodeId turns else pure ⟨g.nextNode⟩

def createNode (turns : Nat) (kind : NodeKind) (parent : Option NodeId) :
    Op Containers Stop NodeId := do
  let g ← get
  if parent.any fun p => !g.has p then throw .unknownNode
  let id ← allocateNodeId turns
  modify fun g => g.insertNode id ⟨kind, parent, []⟩
  match parent with
  | none => pure id
  | some p =>
    if (← get).has p then
      modify fun g => g.modifyNode p fun n => n.link (.node id)
      pure id
    else
      modify fun g => { g with nodes := g.nodes.erase id }
      throw .unknownNode

def attachLeaf (node : NodeId) (leaf : SessionId) : Op Containers Stop Unit := do
  let g ← get
  if (g.kernel.session leaf).isNone then throw (.kernel .unknownSession)
  if !g.has node then throw .unknownNode
  modify fun g => g.modifyNode node fun n => n.link (.leaf leaf)

def parentOf (g : Containers) (id : NodeId) : Option NodeId :=
  (g.node? id).bind ContainerNode.parent

def childNodes (g : Containers) (id : NodeId) : List NodeId :=
  (g.node? id).elim [] ContainerNode.nodes

def childLeaves (g : Containers) (id : NodeId) : List SessionId :=
  (g.node? id).elim [] ContainerNode.leaves

/-- What `reparent_node` does to the tables, both nodes being there. -/
def moveNode (g : Containers) (node : NodeId) (newParent : Option NodeId) : Containers :=
  let oldParent := g.parentOf node
  let g := oldParent.elim g fun op => g.modifyNode op fun n => n.unlink node
  let g := newParent.elim g fun p => g.modifyNode p fun n => n.link (.node node)
  g.modifyNode node fun n => { n with parent := newParent }

def reparentNode (node : NodeId) (newParent : Option NodeId) : Op Containers Stop Unit := do
  let g ← get
  if !g.has node then throw .unknownNode
  if newParent.any fun p => !g.has p || p = node then throw .unknownNode
  modify fun g => g.moveNode node newParent

def collectSubtree (turns : Nat) (root : NodeId) : Op Containers Stop (List NodeId) := do
  let g ← get
  if !g.has root then throw .unknownNode
  match Forest.walk g.childNodes turns [root] [root] with
  | some out => pure out
  | none => throw .running

def leavesIn (g : Containers) (subtree : List NodeId) : List SessionId :=
  subtree.flatMap g.childLeaves

def removeSubtree (g : Containers) (subtree : List NodeId) (root : NodeId) : Containers :=
  let rootParent := g.parentOf root
  let g := rootParent.elim g fun p => g.modifyNode p fun n => n.unlink root
  { g with nodes := subtree.foldl Table.erase g.nodes }

def terminateLeaf (id : SessionId) : Op Containers Stop Unit :=
  Op.mapError .kernel (Op.on kernel (fun kernel g => { g with kernel }) (Kernel.terminate id))

def closeNode (turns : Nat) (node : NodeId) : Op Containers Stop Unit := do
  let subtree ← collectSubtree turns node
  let leaves := (← get).leavesIn subtree
  leaves.forM terminateLeaf
  modify fun g => g.removeSubtree subtree node

-- ---------------------------------------------------------------------------
-- The links after each update
-- ---------------------------------------------------------------------------

theorem has_iff {g : Containers} {id : NodeId} : g.has id = true ↔ ∃ n, g.node? id = some n := by
  rw [has, decide_eq_true_eq, Table.mem_keys_iff, Option.isSome_iff_exists]
  rfl

theorem node?_modifyNode (g : Containers) (id j : NodeId) (f : ContainerNode → ContainerNode) :
    (g.modifyNode id f).node? j = if j = id then (g.node? j).map f else g.node? j := by
  unfold modifyNode
  by_cases hj : j = id
  · subst hj
    rw [if_pos rfl]
    cases h : g.node? j with
    | none => exact h
    | some n => exact Table.get?_set_of_some h (f n)
  · rw [if_neg hj]
    cases g.node? id with
    | none => rfl
    | some n => exact Table.get?_set_of_ne g.nodes (f n) hj

theorem has_modifyNode (g : Containers) (id j : NodeId) (f : ContainerNode → ContainerNode) :
    (g.modifyNode id f).has j = g.has j := by
  rw [Bool.eq_iff_iff, has_iff, has_iff, node?_modifyNode]
  split
  · simp
  · rfl

/-- An update of one node that keeps its parent and changes its lists by `f` and `l`. -/
theorem views_modifyNode (g : Containers) (id : NodeId) {f : ContainerNode → ContainerNode}
    (nodes : List NodeId → List NodeId) (leaves : List SessionId → List SessionId)
    (hparent : ∀ n, (f n).parent = n.parent) (hnodes : ∀ n, (f n).nodes = nodes n.nodes)
    (hleaves : ∀ n, (f n).leaves = leaves n.leaves) (j : NodeId) :
    (g.modifyNode id f).parentOf j = g.parentOf j ∧
      (g.modifyNode id f).childNodes j =
        (if j = id ∧ g.has id then nodes (g.childNodes j) else g.childNodes j) ∧
      (g.modifyNode id f).childLeaves j =
        (if j = id ∧ g.has id then leaves (g.childLeaves j) else g.childLeaves j) := by
  unfold parentOf childNodes childLeaves
  rw [node?_modifyNode]
  by_cases hj : j = id
  · subst hj
    cases h : g.node? j with
    | none =>
      have hno : ¬ g.has j = true := by simp [has_iff, h]
      simp [hno]
    | some n =>
      have hyes : g.has j = true := has_iff.mpr ⟨n, h⟩
      simp [hyes, hparent, hnodes, hleaves]
  · simp [hj]

theorem kernel_modifyNode (g : Containers) (id : NodeId) (f : ContainerNode → ContainerNode) :
    (g.modifyNode id f).kernel = g.kernel := by
  unfold modifyNode
  cases g.node? id with
  | none => rfl
  | some n => rfl

theorem kernel_elim_modifyNode (g : Containers) (p : Option NodeId) (f : ContainerNode → ContainerNode) :
    (p.elim g fun p => g.modifyNode p f).kernel = g.kernel := by
  cases p with
  | none => rfl
  | some p => exact kernel_modifyNode g p f

theorem kernel_createNode (g : Containers) (turns : Nat) (kind : NodeKind) (parent : Option NodeId) :
    ((createNode turns kind parent).exec g).2.kernel = g.kernel := by
  have halloc : ∀ turns, Op.Keeps (fun g' : Containers => g'.kernel = g.kernel) (allocateNodeId turns) := by
    intro turns
    induction turns with
    | zero => exact .throw _
    | succ turns ih =>
      exact .bind .get fun g' => .bind (.modify fun _ h => h) fun _ => .ite (fun _ => ih) fun _ => .pure _
  have hcreate : Op.Keeps (fun g' : Containers => g'.kernel = g.kernel) (createNode turns kind parent) := by
    refine .bind .get fun g' => .guard fun _ => .bind (halloc turns) fun id =>
      .bind (.modify fun _ h => h) fun _ => ?_
    cases parent with
    | none => exact .pure _
    | some p =>
      refine .bind .get fun g' => .ite (fun _ => ?_) fun _ => .bind (.modify fun _ h => h) fun _ => .throw _
      exact .bind (.modify fun g' h => (kernel_modifyNode g' p _).trans h) fun _ => .pure _
  exact hcreate g rfl

theorem kernel_attachLeaf (g : Containers) (node : NodeId) (leaf : SessionId) :
    ((attachLeaf node leaf).exec g).2.kernel = g.kernel := by
  have hattach : Op.Keeps (fun g' : Containers => g'.kernel = g.kernel) (attachLeaf node leaf) :=
    .bind .get fun _ => .guard fun _ => .guard fun _ =>
      .modify fun g' h => (kernel_modifyNode g' node _).trans h
  exact hattach g rfl

theorem kernel_moveNode (g : Containers) (node : NodeId) (newParent : Option NodeId) :
    (g.moveNode node newParent).kernel = g.kernel := by
  unfold moveNode
  dsimp only
  rw [kernel_modifyNode, kernel_elim_modifyNode, kernel_elim_modifyNode]

theorem kernel_reparentNode (g : Containers) (node : NodeId) (newParent : Option NodeId) :
    ((reparentNode node newParent).exec g).2.kernel = g.kernel := by
  have hmove : Op.Keeps (fun g' : Containers => g'.kernel = g.kernel) (reparentNode node newParent) :=
    .bind .get fun _ => .guard fun _ => .guard fun _ =>
      .modify fun g' h => (kernel_moveNode g' node newParent).trans h
  exact hmove g rfl

theorem has_of_mem_childNodes {g : Containers} {c p : NodeId} (h : c ∈ g.childNodes p) :
    g.has p = true := by
  unfold childNodes at h
  cases hp : g.node? p with
  | none =>
    rw [hp] at h
    cases h
  | some n => exact has_iff.mpr ⟨n, hp⟩

theorem has_of_parentOf {g : Containers} {n p : NodeId} (h : g.parentOf n = some p) :
    g.has n = true := by
  unfold parentOf at h
  cases hn : g.node? n with
  | none =>
    rw [hn] at h
    cases h
  | some c => exact has_iff.mpr ⟨c, hn⟩

/-- The links of a container tree are a forest, and each leaf has one container. -/
structure Tree (g : Containers) : Prop where
  forest : Forest g.parentOf g.childNodes
  leaves : ∀ l p q, l ∈ g.childLeaves p → l ∈ g.childLeaves q → p = q

/-- A parent that has the node unlinked is the only one that had it. -/
theorem views_unlink {g : Containers} (h : Forest.Links g.parentOf g.childNodes) (node : NodeId) :
    let g' := (g.parentOf node).elim g fun op => g.modifyNode op fun n => n.unlink node
    g'.parentOf = g.parentOf ∧ (∀ j, g'.childNodes j = (g.childNodes j).filter (· ≠ node)) ∧
      g'.childLeaves = g.childLeaves ∧ g'.has = g.has := by
  have hself : ∀ j, g.parentOf node ≠ some j →
      (g.childNodes j).filter (· ≠ node) = g.childNodes j := by
    intro j hj
    rw [List.filter_eq_self]
    intro c hc
    exact decide_eq_true fun hcn => hj ((h.agree node j).mpr (hcn ▸ hc))
  cases hparent : g.parentOf node with
  | none =>
    refine ⟨rfl, fun j => (hself j ?_).symm, rfl, rfl⟩
    rw [hparent]
    exact nofun
  | some op =>
    have hhas : g.has op = true := has_of_mem_childNodes ((h.agree node op).mp hparent)
    have hviews := g.views_modifyNode op (f := fun n => n.unlink node) _ id (fun _ => rfl)
      (fun n => n.nodes_unlink node) (fun n => n.leaves_unlink node)
    refine ⟨funext fun j => (hviews j).1, fun j => ?_, funext fun j => ?_,
      funext fun j => has_modifyNode _ _ _ _⟩
    · refine (hviews j).2.1.trans ?_
      split
      case isTrue => rfl
      case isFalse hj =>
        refine (hself j fun hop => hj ⟨?_, hhas⟩).symm
        exact (Option.some.inj (hparent.symm.trans hop)).symm
    · refine (hviews j).2.2.trans ?_
      split
      case isTrue => rfl
      case isFalse => rfl

theorem views_link {g : Containers} (node : NodeId) {q : Option NodeId}
    (hq : ∀ p, q = some p → g.has p = true) :
    let g' := q.elim g fun p => g.modifyNode p fun n => n.link (.node node)
    g'.parentOf = g.parentOf ∧
      (∀ j, g'.childNodes j = g.childNodes j ++ if q = some j then [node] else []) ∧
      g'.childLeaves = g.childLeaves ∧ g'.has = g.has := by
  cases q with
  | none => exact ⟨rfl, fun j => (List.append_nil _).symm, rfl, rfl⟩
  | some p =>
    have hviews := g.views_modifyNode p (f := fun n => n.link (.node node)) (· ++ [node]) id (fun _ => rfl)
      (fun n => n.nodes_link_node node) (fun n => n.leaves_link_node node)
    refine ⟨funext fun j => (hviews j).1, fun j => ?_, funext fun j => ?_,
      funext fun j => has_modifyNode _ _ _ _⟩
    · refine (hviews j).2.1.trans ?_
      by_cases hj : j = p
      · subst hj
        rw [if_pos ⟨rfl, hq j rfl⟩, if_pos rfl]
      · rw [if_neg fun h => hj h.1, if_neg fun h => hj (Option.some.inj h).symm, List.append_nil]
    · refine (hviews j).2.2.trans ?_
      split
      case isTrue => rfl
      case isFalse => rfl

theorem views_setParent {g : Containers} {node : NodeId} (hnode : g.has node = true)
    (q : Option NodeId) :
    let g' := g.modifyNode node fun n => { n with parent := q }
    g'.parentOf = Function.update g.parentOf node q ∧ g'.childNodes = g.childNodes ∧
      g'.childLeaves = g.childLeaves := by
  obtain ⟨n, hn⟩ := has_iff.mp hnode
  refine ⟨funext fun j => ?_, funext fun j => ?_, funext fun j => ?_⟩
  · unfold parentOf
    rw [node?_modifyNode]
    by_cases hj : j = node
    · subst hj
      rw [if_pos rfl, hn, Function.update_self]
      rfl
    · rw [if_neg hj, Function.update_of_ne hj]
  · unfold childNodes
    rw [node?_modifyNode]
    split
    case isTrue => cases g.node? j with
      | none => rfl
      | some _ => rfl
    case isFalse => rfl
  · unfold childLeaves
    rw [node?_modifyNode]
    split
    case isTrue => cases g.node? j with
      | none => rfl
      | some _ => rfl
    case isFalse => rfl

theorem views_moveNode {g : Containers} (h : Forest g.parentOf g.childNodes) {node : NodeId}
    {q : Option NodeId} (hnode : g.has node = true) (hq : ∀ p, q = some p → g.has p = true) :
    (g.moveNode node q).parentOf = Function.update g.parentOf node q ∧
      (g.moveNode node q).childNodes = Forest.relink g.childNodes node q ∧
      (g.moveNode node q).childLeaves = g.childLeaves := by
  obtain ⟨hparent₁, hnodes₁, hleaves₁, hhas₁⟩ := views_unlink h.links node
  unfold moveNode
  dsimp only
  generalize (g.parentOf node).elim g (fun op => g.modifyNode op fun n => n.unlink node) = g₁
    at hparent₁ hnodes₁ hleaves₁ hhas₁ ⊢
  obtain ⟨hparent₂, hnodes₂, hleaves₂, hhas₂⟩ := views_link (g := g₁) node (q := q)
    fun p hp => (congrFun hhas₁ p).trans (hq p hp)
  generalize q.elim g₁ (fun p => g₁.modifyNode p fun n => n.link (.node node)) = g₂
    at hparent₂ hnodes₂ hleaves₂ hhas₂ ⊢
  have hnode₂ : g₂.has node = true :=
    ((congrFun hhas₂ node).trans (congrFun hhas₁ node)).trans hnode
  obtain ⟨hparent, hnodes, hleaves⟩ := views_setParent hnode₂ q
  refine ⟨?_, ?_, ?_⟩
  · rw [hparent, hparent₂, hparent₁]
  · funext j
    rw [hnodes, hnodes₂, hnodes₁]
    rfl
  · rw [hleaves, hleaves₂, hleaves₁]

/-- Where the new parent is not under the node, a move is a relinking. -/
theorem Tree.moveNode {g : Containers} (h : g.Tree) {node : NodeId} {q : Option NodeId}
    (hnode : g.has node = true) (hq : ∀ p, q = some p → g.has p = true)
    (habove : ∀ p, q = some p → ¬ Ancestor g.parentOf p node) : (g.moveNode node q).Tree := by
  obtain ⟨hparent, hnodes, hleaves⟩ := views_moveNode h.forest hnode hq
  refine ⟨?_, ?_⟩
  · rw [hparent, hnodes]
    exact h.forest.relinks habove
  · rw [hleaves]
    exact h.leaves

theorem Tree.linkLeaf {g : Containers} (h : g.Tree) {node : NodeId} {leaf : SessionId}
    (halone : ∀ q, leaf ∈ g.childLeaves q → q = node) :
    (g.modifyNode node fun n => n.link (.leaf leaf)).Tree := by
  have hviews := g.views_modifyNode node (f := fun n => n.link (.leaf leaf)) id (· ++ [leaf])
    (fun _ => rfl) (fun n => n.nodes_link_leaf leaf) (fun n => n.leaves_link_leaf leaf)
  generalize g.modifyNode node (fun n => n.link (.leaf leaf)) = g' at hviews ⊢
  have hparent : g'.parentOf = g.parentOf := funext fun j => (hviews j).1
  have hnodes : g'.childNodes = g.childNodes := by
    funext j
    refine (hviews j).2.1.trans ?_
    split
    case isTrue => rfl
    case isFalse => rfl
  have hmem : ∀ l j, l ∈ g'.childLeaves j → l ∈ g.childLeaves j ∨ l = leaf ∧ j = node := by
    intro l j hl
    rw [(hviews j).2.2] at hl
    split at hl
    case isTrue hj => exact (List.mem_append.mp hl).imp id fun hnew =>
      ⟨List.mem_singleton.mp hnew, hj.1⟩
    case isFalse => exact .inl hl
  refine ⟨?_, fun l p q hp hq => ?_⟩
  · rw [hparent, hnodes]
    exact h.forest
  · obtain hp | ⟨rfl, rfl⟩ := hmem l p hp
    · obtain hq | ⟨rfl, rfl⟩ := hmem l q hq
      · exact h.leaves l p q hp hq
      · exact halone p hp
    · obtain hq | ⟨-, rfl⟩ := hmem l q hq
      · exact (halone q hq).symm
      · rfl

theorem not_ancestor_of_not_has {g : Containers} (h : Forest g.parentOf g.childNodes) {id : NodeId}
    (hid : g.has id = false) {p : NodeId} (hp : g.has p = true) : ¬ Ancestor g.parentOf p id := by
  intro hup
  obtain rfl | ⟨c, -, hlast⟩ := Relation.ReflTransGen.cases_tail hup
  · rw [hid] at hp
    cases hp
  · have hhas := has_of_mem_childNodes ((h.agree c id).mp hlast)
    rw [hid] at hhas
    cases hhas

theorem views_insertNode {g : Containers} {id : NodeId} (hid : g.has id = false) (kind : NodeKind)
    (q : Option NodeId) :
    (g.insertNode id ⟨kind, q, []⟩).parentOf = Function.update g.parentOf id q ∧
      (g.insertNode id ⟨kind, q, []⟩).childNodes = g.childNodes ∧
      (g.insertNode id ⟨kind, q, []⟩).childLeaves = g.childLeaves ∧
      ∀ p, g.has p = true → (g.insertNode id ⟨kind, q, []⟩).has p = true := by
  have hkeys : id ∉ g.nodes.keys := of_decide_eq_false hid
  have hnone : g.node? id = none := by
    rw [Table.mem_keys_iff, Bool.not_eq_true, Option.isSome_eq_false_iff, Option.isNone_iff_eq_none]
      at hkeys
    exact hkeys
  have hself : (g.insertNode id ⟨kind, q, []⟩).node? id = some ⟨kind, q, []⟩ :=
    Table.get?_insert_self hkeys _
  have hother : ∀ j, j ≠ id → (g.insertNode id ⟨kind, q, []⟩).node? j = g.node? j :=
    fun j hj => Table.get?_insert_of_ne g.nodes _ hj
  refine ⟨funext fun j => ?_, funext fun j => ?_, funext fun j => ?_, fun p hp => ?_⟩
  · unfold parentOf
    by_cases hj : j = id
    · subst hj
      rw [hself, Function.update_self]
      rfl
    · rw [hother j hj, Function.update_of_ne hj]
  · unfold childNodes
    by_cases hj : j = id
    · subst hj
      rw [hself, hnone]
      rfl
    · rw [hother j hj]
  · unfold childLeaves
    by_cases hj : j = id
    · subst hj
      rw [hself, hnone]
      rfl
    · rw [hother j hj]
  · obtain ⟨n, hn⟩ := has_iff.mp hp
    have hne : p ≠ id := by
      rintro rfl
      rw [hnone] at hn
      cases hn
    exact has_iff.mpr ⟨n, (hother p hne).trans hn⟩

/-- A new node, under a node that is there or under none. -/
theorem Tree.insertNode {g : Containers} (h : g.Tree) {id : NodeId} (hid : g.has id = false)
    (kind : NodeKind) {q : Option NodeId} (hq : ∀ p, q = some p → g.has p = true) :
    (q.elim (g.insertNode id ⟨kind, q, []⟩) fun p =>
      (g.insertNode id ⟨kind, q, []⟩).modifyNode p fun n => n.link (.node id)).Tree := by
  obtain ⟨hparent₁, hnodes₁, hleaves₁, hhas₁⟩ := views_insertNode hid kind q
  generalize g.insertNode id ⟨kind, q, []⟩ = g₁ at hparent₁ hnodes₁ hleaves₁ hhas₁ ⊢
  obtain ⟨hparent, hnodes, hleaves, -⟩ := views_link (g := g₁) id (q := q)
    fun p hp => hhas₁ p (hq p hp)
  generalize q.elim g₁ (fun p => g₁.modifyNode p fun n => n.link (.node id)) = g₂
    at hparent hnodes hleaves ⊢
  refine ⟨?_, ?_⟩
  · have hrelink : g₂.childNodes = Forest.relink g.childNodes id q := by
      funext j
      have hnew : (g.childNodes j).filter (· ≠ id) = g.childNodes j := by
        rw [List.filter_eq_self]
        intro c hc
        refine decide_eq_true ?_
        rintro rfl
        have hhas := has_of_parentOf ((h.forest.agree c j).mpr hc)
        rw [hid] at hhas
        cases hhas
      rw [hnodes, hnodes₁, Forest.relink, hnew]
    rw [hparent, hparent₁, hrelink]
    exact h.forest.relinks fun p hp => not_ancestor_of_not_has h.forest hid (hq p hp)
  · rw [hleaves, hleaves₁]
    exact h.leaves

theorem views_erase (g : Containers) (subtree : List NodeId) (j : NodeId) :
    let g' : Containers := { g with nodes := subtree.foldl Table.erase g.nodes }
    g'.parentOf j = (if j ∈ subtree then none else g.parentOf j) ∧
      g'.childNodes j = (if j ∈ subtree then [] else g.childNodes j) ∧
      g'.childLeaves j = if j ∈ subtree then [] else g.childLeaves j := by
  unfold parentOf childNodes childLeaves node?
  dsimp only
  rw [Table.get?_foldl_erase]
  split
  case isTrue => exact ⟨rfl, rfl, rfl⟩
  case isFalse => exact ⟨rfl, rfl, rfl⟩

theorem views_removeSubtree {g : Containers} (h : Forest.Links g.parentOf g.childNodes)
    (subtree : List NodeId) (root : NodeId) :
    let g' := g.removeSubtree subtree root
    g'.parentOf = (fun j => if j ∈ subtree then none else g.parentOf j) ∧
      g'.childNodes = (fun j => if j ∈ subtree then [] else (g.childNodes j).filter (· ≠ root)) ∧
      g'.childLeaves = fun j => if j ∈ subtree then [] else g.childLeaves j := by
  obtain ⟨hparent₁, hnodes₁, hleaves₁, -⟩ := views_unlink h root
  unfold removeSubtree
  dsimp only
  generalize (g.parentOf root).elim g (fun p => g.modifyNode p fun n => n.unlink root) = g₁
    at hparent₁ hnodes₁ hleaves₁ ⊢
  have hviews := g₁.views_erase subtree
  refine ⟨funext fun j => ?_, funext fun j => ?_, funext fun j => ?_⟩
  · rw [(hviews j).1, hparent₁]
  · rw [(hviews j).2.1, hnodes₁]
  · rw [(hviews j).2.2, hleaves₁]

theorem mem_childLeaves_removeSubtree {g : Containers} (h : Forest.Links g.parentOf g.childNodes)
    {subtree : List NodeId} {root p : NodeId} {l : SessionId}
    (hl : l ∈ (g.removeSubtree subtree root).childLeaves p) : l ∈ g.childLeaves p := by
  rw [(views_removeSubtree h subtree root).2.2] at hl
  dsimp only at hl
  split at hl
  case isTrue => cases hl
  case isFalse => exact hl

theorem Tree.removeSubtree {g : Containers} (h : g.Tree) {root : NodeId} {subtree : List NodeId}
    (hsubtree : ∀ m, m ∈ subtree ↔ Ancestor g.parentOf m root) : (g.removeSubtree subtree root).Tree := by
  obtain ⟨hparent, hnodes, -⟩ := views_removeSubtree h.forest.links subtree root
  refine ⟨?_, fun l p q hp hq => ?_⟩
  · rw [hparent, hnodes]
    exact h.forest.prunes hsubtree
  · exact h.leaves l p q (mem_childLeaves_removeSubtree h.forest.links hp)
      (mem_childLeaves_removeSubtree h.forest.links hq)

-- ---------------------------------------------------------------------------
-- Runs of calls
-- ---------------------------------------------------------------------------

inductive Call
  | createNode (kind : NodeKind) (parent : Option NodeId)
  | attachLeaf (node : NodeId) (leaf : SessionId)
  | reparentNode (node : NodeId) (newParent : Option NodeId)
  | closeNode (node : NodeId)
  | other (kernel : Kernel)

inductive Takes (g : Containers) : Call → Containers → Prop
  | createNode (turns : Nat) (kind : NodeKind) (parent : Option NodeId)
      (h : ((createNode turns kind parent).exec g).1 ≠ .error .running) :
      Takes g (.createNode kind parent) ((createNode turns kind parent).exec g).2
  | attachLeaf (node : NodeId) (leaf : SessionId) :
      Takes g (.attachLeaf node leaf) ((attachLeaf node leaf).exec g).2
  | reparentNode (node : NodeId) (newParent : Option NodeId) :
      Takes g (.reparentNode node newParent) ((reparentNode node newParent).exec g).2
  | closeNode (turns : Nat) (node : NodeId)
      (h : ((closeNode turns node).exec g).1 ≠ .error .running) :
      Takes g (.closeNode node) ((closeNode turns node).exec g).2
  | other (kernel : Kernel) : Takes g (.other kernel) { g with kernel }

/-- A node is not moved under a node below it, and a leaf not attached to a second container. -/
def Clear (g : Containers) : Call → Prop
  | .reparentNode node newParent =>
    ∀ p, newParent = some p → p = node ∨ ¬ Ancestor g.parentOf p node
  | .attachLeaf node leaf =>
    g.has node = true → (g.kernel.session leaf).isSome → ∀ q, leaf ∈ g.childLeaves q → q = node
  | .createNode _ _ | .closeNode _ | .other _ => True

theorem Tree.of_nodes {g g' : Containers} (h : g.Tree) (hnodes : g'.nodes = g.nodes) : g'.Tree := by
  have hparent : g'.parentOf = g.parentOf := by
    funext j
    rw [parentOf, node?, hnodes]
    rfl
  have hchildren : g'.childNodes = g.childNodes := by
    funext j
    rw [childNodes, node?, hnodes]
    rfl
  have hleaves : g'.childLeaves = g.childLeaves := by
    funext j
    rw [childLeaves, node?, hnodes]
    rfl
  refine ⟨?_, ?_⟩
  · rw [hparent, hchildren]
    exact h.forest
  · rw [hleaves]
    exact h.leaves

theorem tree_new (kernel : Kernel) : (new kernel).Tree := ⟨.empty, nofun⟩

theorem exec_allocateNodeId (turns : Nat) (g : Containers) :
    (∃ g', (allocateNodeId turns).exec g = (.error .running, g')) ∨
      ∃ id g', (allocateNodeId turns).exec g = (.ok id, g') ∧ g'.nodes = g.nodes ∧
        g.has id = false := by
  induction turns generalizing g with
  | zero => exact .inl ⟨g, rfl⟩
  | succ turns ih =>
    rw [allocateNodeId, Op.exec_get_bind, Op.exec_modify_bind]
    split
    case isTrue =>
      obtain ⟨g', h⟩ | ⟨id, g', h, hnodes, hid⟩ := ih
        { g with nextNode := if g.nextNode = 18446744073709551615 then 1 else g.nextNode + 1 }
      · exact .inl ⟨g', h⟩
      · exact .inr ⟨id, g', h, hnodes, hid⟩
    case isFalse hfree => exact .inr ⟨_, _, rfl, rfl, by simpa using hfree⟩

theorem tree_createNode {g : Containers} (h : g.Tree) {turns : Nat} {kind : NodeKind}
    {parent : Option NodeId} (hends : ((createNode turns kind parent).exec g).1 ≠ .error .running) :
    ((createNode turns kind parent).exec g).2.Tree := by
  rw [createNode, Op.exec_get_bind] at hends ⊢
  by_cases hparent : parent.any (fun p => !g.has p) = true
  · rw [Op.exec_guard_pos hparent]
    exact h
  · rw [Op.exec_guard_neg hparent] at hends ⊢
    have hq : ∀ p, parent = some p → g.has p = true := by
      rintro p rfl
      simpa using hparent
    obtain ⟨g', hrun⟩ | ⟨id, g', hrun, hnodes, hid⟩ := exec_allocateNodeId turns g
    · rw [Op.exec_bind_error hrun] at hends
      exact absurd rfl hends
    · have h' := h.of_nodes hnodes
      have hhas : g'.has = g.has := by
        funext j
        rw [has, hnodes]
        rfl
      have hid' : g'.has id = false := (congrFun hhas id).trans hid
      have hq' : ∀ p, parent = some p → g'.has p = true :=
        fun p hp => (congrFun hhas p).trans (hq p hp)
      have htree := h'.insertNode hid' kind hq'
      rw [Op.exec_bind_ok hrun, Op.exec_modify_bind]
      cases parent with
      | none => exact htree
      | some p =>
        obtain ⟨-, -, -, hkeeps⟩ := views_insertNode hid' kind (some p)
        rw [Op.exec_get_bind, if_pos (hkeeps p (hq' p rfl))]
        exact htree

theorem tree_attachLeaf {g : Containers} (h : g.Tree) (node : NodeId) (leaf : SessionId) :
    ((attachLeaf node leaf).exec g).2.Tree ↔ Clear g (.attachLeaf node leaf) := by
  rw [attachLeaf, Op.exec_get_bind]
  by_cases hleaf : (g.kernel.session leaf).isNone = true
  · rw [Op.exec_guard_pos hleaf]
    refine iff_of_true h fun _ hsome => ?_
    rw [Option.isNone_iff_eq_none.mp hleaf] at hsome
    cases hsome
  · rw [Op.exec_guard_neg hleaf]
    by_cases hnode : (!g.has node) = true
    · rw [Op.exec_guard_pos hnode]
      refine iff_of_true h fun hhas => ?_
      rw [hhas] at hnode
      cases hnode
    · rw [Op.exec_guard_neg hnode]
      have hhas : g.has node = true := by simpa using hnode
      have hsome : (g.kernel.session leaf).isSome := by
        rw [Option.isSome_iff_ne_none]
        exact fun hnone => hleaf (Option.isNone_iff_eq_none.mpr hnone)
      have hviews := g.views_modifyNode node (f := fun n => n.link (.leaf leaf)) id (· ++ [leaf])
        (fun _ => rfl) (fun n => n.nodes_link_leaf leaf) (fun n => n.leaves_link_leaf leaf)
      constructor
      · intro htree _ _ q hq
        refine htree.leaves leaf q node ?_ ?_
        · refine (hviews q).2.2 ▸ ?_
          split
          case isTrue => exact List.mem_append_left _ hq
          case isFalse => exact hq
        · refine (hviews node).2.2 ▸ ?_
          rw [if_pos ⟨rfl, hhas⟩]
          exact List.mem_append_right _ (List.mem_singleton_self _)
      · exact fun hclear => h.linkLeaf (hclear hhas hsome)

theorem tree_reparentNode {g : Containers} (h : g.Tree) (node : NodeId) (newParent : Option NodeId) :
    ((reparentNode node newParent).exec g).2.Tree ↔ Clear g (.reparentNode node newParent) := by
  rw [reparentNode, Op.exec_get_bind]
  by_cases hnode : (!g.has node) = true
  · rw [Op.exec_guard_pos hnode]
    refine iff_of_true h fun p _ => ?_
    have hno : g.has node = false := by simpa using hnode
    by_cases hp : p = node
    · exact .inl hp
    · refine .inr fun habove => ?_
      obtain heq | ⟨c, -, hlast⟩ := Relation.ReflTransGen.cases_tail habove
      · exact hp heq.symm
      · rw [has_of_mem_childNodes ((h.forest.agree c node).mp hlast)] at hno
        cases hno
  · rw [Op.exec_guard_neg hnode]
    have hhas : g.has node = true := by simpa using hnode
    by_cases hbad : newParent.any (fun p => !g.has p || p = node) = true
    · rw [Op.exec_guard_pos hbad]
      refine iff_of_true h ?_
      rintro p rfl
      by_cases hp : p = node
      · exact .inl hp
      · refine .inr fun habove => ?_
        have hno : g.has p = false := by simpa [hp] using hbad
        obtain heq | ⟨c, hup, -⟩ := Relation.ReflTransGen.cases_head habove
        · exact hp heq
        · rw [has_of_parentOf hup] at hno
          cases hno
    · rw [Op.exec_guard_neg hbad]
      have hq : ∀ p, newParent = some p → g.has p = true ∧ p ≠ node := by
        rintro p rfl
        simpa using hbad
      constructor
      · intro htree p hp
        refine .inr fun habove => ?_
        obtain ⟨hparent, -, -⟩ := views_moveNode h.forest hhas fun p hp => (hq p hp).1
        have hcycle := htree.forest.acyclic node
        rw [Op.exec_modify, hparent] at hcycle
        refine hcycle (.head' ?_ (Forest.ancestor_of_update newParent habove))
        rw [Up, Function.update_self, hp]
      · intro hclear
        refine h.moveNode hhas (fun p hp => (hq p hp).1) fun p hp => ?_
        exact (hclear p hp).resolve_left (hq p hp).2

theorem length_under {g : Containers} {root : NodeId}
    (hroot : g.has root = true) (l : List NodeId) (hl : l.Nodup)
    (hunder : ∀ m ∈ l, Ancestor g.parentOf m root) : l.length ≤ g.nodes.keys.length := by
  refine (List.subperm_of_subset hl fun m hm => ?_).length_le
  obtain rfl | ⟨p, hup, -⟩ := Relation.ReflTransGen.cases_head (hunder m hm)
  · exact of_decide_eq_true hroot
  · exact of_decide_eq_true (has_of_parentOf hup)

theorem exec_collectSubtree {g : Containers} {root : NodeId} (hroot : g.has root = true) (turns : Nat) :
    (collectSubtree turns root).exec g =
      ((Forest.walk g.childNodes turns [root] [root]).elim (.error .running) .ok, g) := by
  have hno : ¬ (!g.has root) = true := by simp [hroot]
  rw [collectSubtree, Op.exec_get_bind, Op.exec_guard_neg hno]
  cases Forest.walk g.childNodes turns [root] [root] with
  | none => rfl
  | some out => rfl

/-- The leaves of a closing node go one by one, and the nodes stay until the last has. -/
theorem nodes_terminate (leaves : List SessionId) (g : Containers) :
    ((leaves.forM terminateLeaf).exec g).2.nodes = g.nodes := by
  have hkeeps : Op.Keeps (fun g' : Containers => g'.nodes = g.nodes) (leaves.forM terminateLeaf) :=
    Op.Keeps.forM (fun _ => .mapError _ (.on fun _ h => h)) leaves
  exact hkeeps g rfl

theorem tree_closeNode {g : Containers} (h : g.Tree) (turns : Nat) (node : NodeId) :
    ((closeNode turns node).exec g).2.Tree := by
  by_cases hnode : g.has node = true
  · rw [closeNode, Op.exec_bind, exec_collectSubtree hnode]
    cases hwalk : Forest.walk g.childNodes turns [node] [node] with
    | none => exact h
    | some out =>
      obtain ⟨-, hout⟩ := h.forest.walk_eq_some (length_under hnode) hwalk
      dsimp only [Option.elim]
      rw [Op.exec_get_bind, Op.exec_bind]
      have hnodes := nodes_terminate (g.leavesIn out) g
      generalize ((g.leavesIn out).forM terminateLeaf).exec g = r at hnodes ⊢
      obtain ⟨e | _, g'⟩ := r
      · exact h.of_nodes hnodes
      · have hparent : g'.parentOf = g.parentOf := by
          funext j
          rw [parentOf, node?, hnodes]
          rfl
        have hsubtree : ∀ m, m ∈ out ↔ Ancestor g'.parentOf m node := by
          rw [hparent]
          exact hout
        exact (h.of_nodes hnodes).removeSubtree hsubtree
  · have hno : (!g.has node) = true := by simpa using hnode
    rw [closeNode, collectSubtree, Op.exec_bind, Op.exec_get_bind, Op.exec_guard_pos hno]
    exact h

/-- A call keeps the tree exactly when it is clear. -/
theorem takes_tree_iff {g g' : Containers} {call : Call} (h : g.Tree) (htakes : g.Takes call g') :
    g'.Tree ↔ Clear g call := by
  cases htakes with
  | createNode turns kind parent hends => exact iff_of_true (tree_createNode h hends) trivial
  | attachLeaf node leaf => exact tree_attachLeaf h node leaf
  | reparentNode node newParent => exact tree_reparentNode h node newParent
  | closeNode turns node hends => exact iff_of_true (tree_closeNode h turns node) trivial
  | other kernel => exact iff_of_true (h.of_nodes rfl) trivial

/-- In every state that clear calls lead to the links are a forest, the walk of every node ends
and meets each node under it once, and the next call keeps this exactly when it is clear. -/
theorem runs_tree {kernel : Kernel} {g : Containers} (hrun : Runs Takes Clear (new kernel) g) :
    g.Tree ∧ (∀ c p, c ∈ g.childNodes p → g.has c = true) ∧
      (∀ root, g.has root = true → ∃ turns out, (collectSubtree turns root).exec g = (.ok out, g) ∧
        out.Nodup ∧ ∀ m, m ∈ out ↔ Ancestor g.parentOf m root) ∧
      ∀ call g', g.Takes call g' → (g'.Tree ↔ Clear g call) := by
  have hstep : ∀ (g : Containers) (call : Call) (g' : Containers), g.Tree → Clear g call →
      Takes g call g' → g'.Tree :=
    fun _ _ _ h hclear htakes => (takes_tree_iff h htakes).mpr hclear
  have htree : g.Tree := hrun.invariant hstep (tree_new kernel)
  refine ⟨htree, fun c p hc => has_of_parentOf ((htree.forest.agree c p).mpr hc),
    fun root hroot => ?_, fun call g' htakes => takes_tree_iff htree htakes⟩
  obtain ⟨out, hwalk, hnodup, hmem⟩ := htree.forest.walk_ends (length_under hroot)
    (Nat.lt_succ_self _)
  refine ⟨g.nodes.keys.length + 1, out, ?_, hnodup, hmem⟩
  rw [exec_collectSubtree hroot, hwalk]
  rfl

/-- A workspace with a tab in it. -/
def workspaceWithTab : Containers :=
  ((createNode 1 .tab (some ⟨1⟩)).exec ((createNode 1 .workspace none).exec (new .new)).2).2

theorem runs_workspaceWithTab : Runs Takes Clear (new .new) workspaceWithTab := by
  have hworkspace : Takes (new .new) (.createNode .workspace none)
      ((createNode 1 .workspace none).exec (new .new)).2 :=
    .createNode 1 .workspace none nofun
  have htab : Takes ((createNode 1 .workspace none).exec (new .new)).2
      (.createNode .tab (some ⟨1⟩)) workspaceWithTab :=
    .createNode 1 .tab (some ⟨1⟩) nofun
  exact .tail (.tail .refl ⟨.createNode .workspace none, trivial, hworkspace⟩)
    ⟨.createNode .tab (some ⟨1⟩), trivial, htab⟩

theorem runs_tree_closed : ((closeNode 3 ⟨1⟩).exec workspaceWithTab).2.Tree := by
  have hclose : Takes workspaceWithTab (.closeNode ⟨1⟩) ((closeNode 3 ⟨1⟩).exec workspaceWithTab).2 :=
    .closeNode 3 ⟨1⟩ nofun
  exact (runs_tree (.tail runs_workspaceWithTab ⟨.closeNode ⟨1⟩, trivial, hclose⟩)).1

/-- A workspace moved under its own tab: each is above itself, and no walk of them ends. -/
theorem reparent_cycles :
    ∃ g, AllRuns Takes (new .new) g ∧ ¬ g.Tree ∧ Relation.TransGen (Up g.parentOf) ⟨1⟩ ⟨1⟩ ∧
      ∀ turns, ((collectSubtree turns ⟨1⟩).exec g).1 = .error .running := by
  have hmove : Takes workspaceWithTab (.reparentNode ⟨1⟩ (some ⟨2⟩))
      ((reparentNode ⟨1⟩ (some ⟨2⟩)).exec workspaceWithTab).2 :=
    .reparentNode ⟨1⟩ (some ⟨2⟩)
  have hrun := (runs_workspaceWithTab.mono fun _ _ _ => trivial).tail ⟨_, trivial, hmove⟩
  have hparent : ((reparentNode ⟨1⟩ (some ⟨2⟩)).exec workspaceWithTab).2.parentOf ⟨1⟩ = some ⟨2⟩ ∧
      ((reparentNode ⟨1⟩ (some ⟨2⟩)).exec workspaceWithTab).2.parentOf ⟨2⟩ = some ⟨1⟩ := by
    decide
  have hbelow : ((reparentNode ⟨1⟩ (some ⟨2⟩)).exec workspaceWithTab).2.childNodes ⟨1⟩ = [⟨2⟩] ∧
      ((reparentNode ⟨1⟩ (some ⟨2⟩)).exec workspaceWithTab).2.childNodes ⟨2⟩ = [⟨1⟩] := by
    decide
  generalize ((reparentNode ⟨1⟩ (some ⟨2⟩)).exec workspaceWithTab).2 = g at hrun hparent hbelow
  have hcycle : Relation.TransGen (Up g.parentOf) ⟨1⟩ ⟨1⟩ := .head hparent.1 (.single hparent.2)
  have hwalk : ∀ turns out, Forest.walk g.childNodes turns [⟨1⟩] out = none ∧
      Forest.walk g.childNodes turns [⟨2⟩] out = none := by
    intro turns
    induction turns with
    | zero => exact fun _ => ⟨rfl, rfl⟩
    | succ turns ih =>
      intro out
      rw [Forest.walk, Forest.walk, hbelow.1, hbelow.2]
      exact ⟨(ih _).2, (ih _).1⟩
  have hhas : g.has ⟨1⟩ = true := has_of_parentOf hparent.1
  refine ⟨g, hrun, fun htree => htree.forest.acyclic _ hcycle, hcycle, fun turns => ?_⟩
  rw [exec_collectSubtree hhas, (hwalk turns _).1]
  rfl

end Containers

end Rill
