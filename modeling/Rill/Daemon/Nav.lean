import Mathlib.Data.List.Sort
import Rill.Kernel.Containers
import Rill.Lib.Fields

/-!
# The line for the sidebar

The containers in the order of their ids, and the one line in which the daemon writes its
workspace, the tabs and the first leaf of each tab.
-/

namespace Rill

open Lib

namespace Kernel

/-- Cold, read-only projection of one container. -/
structure ContainerSnapshot where
  id : NodeId
  kind : NodeKind
  parent : Option NodeId
  children : List NodeChild

/-- The id of the first leaf right below the node, 0 where there is none. -/
def ContainerSnapshot.firstLeaf (row : ContainerSnapshot) : UInt64 :=
  (row.children.findSome? fun c => c.leaf?.map SessionId.raw).getD 0

end Kernel

namespace Containers

open Kernel

def sortedIds (g : Containers) : List NodeId := g.nodes.keys.mergeSort fun a b => a.raw ≤ b.raw

def containerSnapshot (g : Containers) : List ContainerSnapshot :=
  g.sortedIds.filterMap fun id => (g.node? id).map fun n => ⟨id, n.kind, n.parent, n.children⟩

def tabRows (g : Containers) : List ContainerSnapshot :=
  g.containerSnapshot.filter fun row => row.kind = .tab

def tabIds (g : Containers) : List UInt64 := g.tabRows.map fun row => row.id.raw

def leafIds (g : Containers) : List UInt64 := g.tabRows.map ContainerSnapshot.firstLeaf

/-- What the daemon whose workspace this is writes to a cold navigation connection. -/
def navSnapshotLine (workspaceId : NodeId) (g : Containers) : String :=
  let tabs := g.tabIds.map fun id => id.toNat.repr
  let leaves := g.leafIds.map fun id => id.toNat.repr
  "ws=" ++ workspaceId.raw.toNat.repr ++ " tabs=" ++ ",".intercalate tabs ++ " leaves=" ++
    ",".intercalate leaves ++ "\n"

-- ---------------------------------------------------------------------------
-- The rows
-- ---------------------------------------------------------------------------

theorem mem_sortedIds {g : Containers} {id : NodeId} : id ∈ g.sortedIds ↔ (g.node? id).isSome := by
  rw [sortedIds, List.mem_mergeSort, node?, Table.mem_keys_iff]

theorem pairwise_sortedIds (g : Containers) : g.sortedIds.Pairwise fun a b => a.raw < b.raw := by
  have hle : g.sortedIds.Pairwise fun a b => a.raw ≤ b.raw := by
    have htrans : ∀ a b c : NodeId, decide (a.raw ≤ b.raw) = true → decide (b.raw ≤ c.raw) = true →
        decide (a.raw ≤ c.raw) = true := by
      intro a b c hab hbc
      simp only [decide_eq_true_eq] at hab hbc ⊢
      exact UInt64.le_trans hab hbc
    have htotal : ∀ a b : NodeId, (decide (a.raw ≤ b.raw) || decide (b.raw ≤ a.raw)) = true := by
      intro a b
      simpa using UInt64.le_total a.raw b.raw
    exact (List.pairwise_mergeSort htrans htotal g.nodes.keys).imp of_decide_eq_true
  have hnodup : g.sortedIds.Nodup := (List.mergeSort_perm _ _).nodup_iff.mpr g.nodes.nodup
  refine (hle.and hnodup).imp fun {a b} hab => UInt64.lt_of_le_of_ne hab.1 fun heq => hab.2 ?_
  cases a
  cases b
  exact congrArg NodeId.mk heq

theorem mem_containerSnapshot {g : Containers} {row : ContainerSnapshot} :
    row ∈ g.containerSnapshot ↔
      ∃ n, g.node? row.id = some n ∧ row = ⟨row.id, n.kind, n.parent, n.children⟩ := by
  simp only [containerSnapshot, List.mem_filterMap, mem_sortedIds, Option.map_eq_some_iff]
  constructor
  · rintro ⟨id, -, n, hn, rfl⟩
    exact ⟨n, hn, rfl⟩
  · rintro ⟨n, hn, hrow⟩
    exact ⟨row.id, by simp [hn], n, hn, hrow.symm⟩

theorem pairwise_containerSnapshot (g : Containers) :
    g.containerSnapshot.Pairwise fun a b => a.id.raw < b.id.raw := by
  rw [containerSnapshot, List.pairwise_filterMap]
  refine g.pairwise_sortedIds.imp fun {a b} hab row hrow row' hrow' => ?_
  obtain ⟨n, -, rfl⟩ := Option.map_eq_some_iff.mp hrow
  obtain ⟨n', -, rfl⟩ := Option.map_eq_some_iff.mp hrow'
  exact hab

theorem containerSnapshot_of_pairwise {g : Containers} (h : g.nodes.keys.Pairwise fun a b => a.raw < b.raw) :
    g.containerSnapshot = g.nodes.entries.map fun e => ⟨e.1, e.2.kind, e.2.parent, e.2.children⟩ := by
  have hsorted : g.sortedIds = g.nodes.keys :=
    List.mergeSort_of_pairwise (h.imp fun hab => decide_eq_true (UInt64.le_of_lt hab))
  rw [containerSnapshot, hsorted, Table.keys, List.filterMap_map, ← List.filterMap_eq_map]
  refine List.filterMap_congr fun e he => ?_
  simp only [Function.comp_apply, node?, g.nodes.get?_of_mem he, Option.map_some]

theorem pairwise_tabIds (g : Containers) : g.tabIds.Pairwise (· < ·) := by
  rw [tabIds, List.pairwise_map]
  exact g.pairwise_containerSnapshot.filter _

theorem mem_tabRows {g : Containers} {row : ContainerSnapshot} :
    row ∈ g.tabRows ↔
      ∃ n, g.node? row.id = some n ∧ n.kind = .tab ∧ row = ⟨row.id, .tab, n.parent, n.children⟩ := by
  rw [tabRows, List.mem_filter, mem_containerSnapshot]
  constructor
  · rintro ⟨⟨n, hn, hrow⟩, hkind⟩
    have htab : n.kind = .tab := by
      rw [hrow] at hkind
      exact of_decide_eq_true hkind
    exact ⟨n, hn, htab, by rw [← htab]; exact hrow⟩
  · rintro ⟨n, hn, htab, hrow⟩
    refine ⟨⟨n, hn, by rw [htab]; exact hrow⟩, ?_⟩
    rw [hrow]
    rfl

theorem mem_tabIds {g : Containers} {id : UInt64} :
    id ∈ g.tabIds ↔ ∃ n, g.node? ⟨id⟩ = some n ∧ n.kind = .tab := by
  rw [tabIds, List.mem_map]
  constructor
  · rintro ⟨row, hrow, rfl⟩
    obtain ⟨n, hn, htab, -⟩ := mem_tabRows.mp hrow
    exact ⟨n, hn, htab⟩
  · rintro ⟨n, hn, htab⟩
    exact ⟨⟨⟨id⟩, .tab, n.parent, n.children⟩, mem_tabRows.mpr ⟨n, hn, htab, rfl⟩, rfl⟩

def firstLeafOf (g : Containers) (id : NodeId) : UInt64 := ((g.childLeaves id).head?.map SessionId.raw).getD 0

theorem leafIds_eq (g : Containers) : g.leafIds = g.tabIds.map fun id => g.firstLeafOf ⟨id⟩ := by
  rw [leafIds, tabIds, List.map_map]
  refine List.map_congr_left fun row hrow => ?_
  obtain ⟨n, hn, -, hrow⟩ := mem_tabRows.mp hrow
  have hchildren : row.children = n.children := by rw [hrow]
  have hleaves : g.childLeaves row.id = n.leaves := by rw [childLeaves, hn, Option.elim_some]
  simp only [Function.comp_apply, firstLeafOf, hleaves, ContainerSnapshot.firstLeaf, hchildren,
    ContainerNode.leaves, List.head?_filterMap, List.map_findSome?]
  rfl

-- ---------------------------------------------------------------------------
-- The line
-- ---------------------------------------------------------------------------

def workspaceField (workspaceId : NodeId) : List Char :=
  ['w', 's', '='] ++ decimal64.write workspaceId.raw

def tabsField (g : Containers) : List Char :=
  ['t', 'a', 'b', 's', '='] ++ decimal64.writeAll ',' g.tabIds

def leavesField (g : Containers) : List Char :=
  ['l', 'e', 'a', 'v', 'e', 's', '='] ++ decimal64.writeAll ',' g.leafIds

theorem toList_intercalate_repr (ids : List UInt64) :
    (",".intercalate (ids.map fun id => id.toNat.repr)).toList = decimal64.writeAll ',' ids := by
  rw [String.toList_intercalate, List.map_map, Spelling.writeAll]
  congr 1
  exact List.map_congr_left fun id _ => Nat.toList_repr

theorem toList_navSnapshotLine (workspaceId : NodeId) (g : Containers) :
    (navSnapshotLine workspaceId g).toList =
      workspaceField workspaceId ++ ' ' :: (g.tabsField ++ ' ' :: (g.leavesField ++ ['\n'])) := by
  simp only [navSnapshotLine, String.toList_append, toList_intercalate_repr, Nat.toList_repr,
    workspaceField, tabsField, leavesField, List.append_assoc, List.cons_append, List.nil_append]
  rfl

theorem isAsciiDigitOrComma {ids : List UInt64} {c : Char} (h : c ∈ decimal64.writeAll ',' ids) :
    c = ',' ∨ c.isDigit = true := by
  rcases decimal64.mem_writeAll ',' h with rfl | ⟨v, -, hc⟩
  · exact .inl rfl
  · exact .inr (isDigit_of_mem_decimal64 hc)

end Containers

end Rill
