import Rill.Daemon.Flush
import Rill.Daemon.Nav
import Rill.Kernel.Events
import Rill.Lib.Mask
import Rill.Lib.Text

/-!
# The navigation channel

Who connects is sent the tabs there are, and may ask for one more in what it sends first. The
daemon makes a tab for each that asks, with a leaf of its own, and answers with the tabs there
are then.
-/

namespace Rill.Daemon

open Lib Kernel Containers

/-- `number` says how many connections were accepted before, `heard` what was read from it and
`lost` what could not be written to it; the daemon looks at none of the three. -/
structure NavConnection where
  stream : Stream
  number : Nat
  heard : List UInt8
  lost : List UInt8
  deriving DecidableEq, Repr

structure NewTab where
  number : Nat
  leaf : SessionId
  line : String
  deriving DecidableEq, Repr

/-- `spawns` is what `Session::spawn` is going to give. `accepted` is the number of connections
there ever were, `closed` those that are gone and `replies` the tabs that were asked for; the
daemon looks at none of the three. -/
structure NavService where
  containers : Containers
  workspaceId : NodeId
  spawns : List Session
  conns : List NavConnection
  accepted : Nat
  closed : List NavConnection
  replies : List NewTab

abbrev NavM := Op NavService Stop

def navBufLen : Nat := 64

/-- `cmd.contains("NEW_TAB")`. -/
def asksNewTab (bytes : List UInt8) : Bool :=
  occurs ['N', 'E', 'W', '_', 'T', 'A', 'B'] (fromUtf8Lossy bytes)

/-- `write_all`: whether the socket did not fail, and what is left unwritten, which is lost. -/
def Stream.writeAll (s : Stream) (bytes : List UInt8) : Bool × List UInt8 × Stream :=
  let (ok, writes, lost, sent) := Client.writeLoop s.writes bytes s.sent
  (ok, lost, { s with writes, sent })

namespace NavConnection

def new (reads : List Read) (writes : List Write) (number : Nat) : NavConnection :=
  ⟨⟨reads, writes, []⟩, number, [], []⟩

def write (c : NavConnection) (line : String) : Bool × NavConnection :=
  let (ok, lost, stream) := c.stream.writeAll (asBytes line)
  (ok, { c with stream, lost := c.lost ++ lost })

def read (c : NavConnection) : Read × NavConnection :=
  let c' := { c with stream := { c.stream with reads := c.stream.reads.tail } }
  match c.stream.reads.headD .wouldBlock with
  | .data bytes =>
    let bytes := bytes.take navBufLen
    if bytes.isEmpty then (.eof, c') else (.data bytes, { c' with heard := bytes })
  | other => (other, c')

theorem write_spec (c : NavConnection) (line : String) :
    ∃ out lost, (c.write line).2.stream.sent = c.stream.sent ++ out ∧
      (c.write line).2.lost = c.lost ++ lost ∧ out ++ lost = asBytes line := by
  have hbytes := Client.writeLoop_bytes c.stream.writes (asBytes line) c.stream.sent
  obtain ⟨out, hout⟩ := Client.writeLoop_grows c.stream.writes (asBytes line) c.stream.sent
  rw [← hout, List.append_assoc, List.append_cancel_left_eq] at hbytes
  exact ⟨out, _, hout.symm, rfl, hbytes⟩

theorem read_spec (c : NavConnection) :
    c.read.2.number = c.number ∧ c.read.2.stream.sent = c.stream.sent ∧ c.read.2.lost = c.lost ∧
      ((∃ bytes, c.read.1 = .data bytes ∧ c.read.2.heard = bytes) ∨
        ((∀ bytes, c.read.1 ≠ .data bytes) ∧ c.read.2.heard = c.heard)) := by
  rw [read]
  rcases c.stream.reads.headD .wouldBlock with bytes | _ | _ | _
  · dsimp only
    split
    · exact ⟨rfl, rfl, rfl, .inr ⟨by simp, rfl⟩⟩
    · exact ⟨rfl, rfl, rfl, .inl ⟨_, rfl, rfl⟩⟩
  · exact ⟨rfl, rfl, rfl, .inr ⟨by simp, rfl⟩⟩
  · exact ⟨rfl, rfl, rfl, .inr ⟨by simp, rfl⟩⟩
  · exact ⟨rfl, rfl, rfl, .inr ⟨by simp, rfl⟩⟩

end NavConnection

namespace NavService

def onContainers (m : Op Containers Stop α) : NavM α :=
  Op.on containers (fun containers s => { s with containers }) m

def line (s : NavService) : String := navSnapshotLine s.workspaceId s.containers

def keep (s : NavService) (c : NavConnection) : NavService := { s with conns := s.conns ++ [c] }

def remove (s : NavService) (c : NavConnection) : NavService := { s with closed := s.closed ++ [c] }

/-- `accept_cold_nav`, when a connection is there. A write that fails is one to a connection that
is gone; any other error of it ends the daemon, and no run goes on from there. -/
def accept (s : NavService) (reads : List Read) (writes : List Write) : NavService :=
  let (ok, c) := (NavConnection.new reads writes s.accepted).write s.line
  let s := { s with accepted := s.accepted + 1 }
  if ok then s.keep c else s.remove c

/-- The new leaf is returned for the record only. -/
def spawnTabLeaf (turns : Nat) : NavM SessionId := do
  let s ← get
  match s.spawns with
  | [] => throw (.kernel .spawn)
  | session :: spawns =>
    let (leaf, kernel) := s.containers.kernel.spawnLeaf session
    modify fun s => { s with containers := { s.containers with kernel }, spawns }
    let tab ← onContainers (createNode turns .tab (some s.workspaceId))
    onContainers (attachLeaf tab leaf)
    pure leaf

/-- The answer to a connection that asked, which is closed after it. -/
def answer (c : NavConnection) (leaf : SessionId) (s : NavService) : NavService :=
  { s.remove (c.write s.line).2 with replies := s.replies ++ [⟨c.number, leaf, s.line⟩] }

def pollConnection (turns : Nat) (c : NavConnection) : NavM Unit :=
  match c.read with
  | (.wouldBlock, c) => modify fun s => s.keep c
  | (.data bytes, c) => do
    if asksNewTab bytes then
      let leaf ← spawnTabLeaf turns
      modify (answer c leaf)
    else modify fun s => s.remove c
  | (_, c) => modify fun s => s.remove c

/-- `poll_nav_commands`. The daemon ends with a poll that fails. -/
def poll (turns : Nat) : NavM Unit := do
  let s ← get
  modify fun s => { s with conns := [] }
  s.conns.forM (pollConnection turns)

/-- The workspace that `bind` makes, with a tab for the first leaf. -/
def bindContainers (leaf : SessionId) : Op Containers Stop NodeId := do
  let workspace ← createNode 1 .workspace none
  let tab ← createNode 1 .tab (some workspace)
  attachLeaf tab leaf
  pure workspace

/-- The service of a daemon that was just bound, with `session` as its first leaf. -/
def bind (session : Session) (spawns : List Session) : Except Stop NavService :=
  let (leaf, kernel) := Kernel.new.spawnLeaf session
  match (bindContainers leaf).exec (Containers.new kernel) with
  | (.ok workspaceId, containers) => .ok ⟨containers, workspaceId, spawns, [], 0, [], []⟩
  | (.error e, _) => .error e

-- ---------------------------------------------------------------------------
-- A row of tabs
-- ---------------------------------------------------------------------------

def tabId (i : Nat) : NodeId := ⟨UInt64.ofNat (i + 2)⟩

def tabEntry (i : Nat) (children : List NodeChild) : NodeId × ContainerNode :=
  (tabId i, ⟨.tab, some ⟨1⟩, children⟩)

def workspaceEntry (tabs : List NodeChild) : NodeId × ContainerNode := (⟨1⟩, ⟨.workspace, none, tabs⟩)

def tabChildren (n : Nat) : List NodeChild := (List.range n).map fun i => .node (tabId i)

def rowOf (leaves : List SessionId) : List (NodeId × ContainerNode) :=
  workspaceEntry (tabChildren leaves.length) :: leaves.mapIdx fun i leaf => tabEntry i [.leaf leaf]

/-- The containers are a workspace with a tab for each of the leaves, all of them different, made
in this order. -/
structure Row (g : Containers) (leaves : List SessionId) : Prop where
  entries : g.nodes.entries = rowOf leaves
  next : g.nextNode = UInt64.ofNat (leaves.length + 2)
  nodup : leaves.Nodup
  live : ∀ leaf ∈ leaves, (g.kernel.session leaf).isSome

/-- There are ids left for so many nodes. -/
def Fits (n : Nat) : Prop := n + 2 < 18446744073709551616

theorem tabId_inj {i j : Nat} (hi : Fits i) (hj : Fits j) : tabId i = tabId j ↔ i = j := by
  refine ⟨fun h => ?_, congrArg tabId⟩
  have hval := congrArg (fun id : NodeId => id.raw.toNat) h
  simp only [tabId] at hval
  rw [UInt64.toNat_ofNat_of_lt' hi, UInt64.toNat_ofNat_of_lt' hj] at hval
  exact Nat.add_right_cancel hval

theorem tabId_ne_one {i : Nat} (hi : Fits i) : tabId i ≠ ⟨1⟩ := by
  intro h
  have hval := congrArg (fun id : NodeId => id.raw.toNat) h
  simp only [tabId] at hval
  rw [UInt64.toNat_ofNat_of_lt' hi] at hval
  simp at hval

theorem keys_rowOf (leaves : List SessionId) :
    (rowOf leaves).map Prod.fst = ⟨1⟩ :: (List.range leaves.length).map tabId := by
  rw [rowOf, List.map_cons]
  congr 1
  exact List.ext_getElem (by simp) fun i _ _ => by simp [tabEntry]

theorem rowOf_concat (leaves : List SessionId) (leaf : SessionId) :
    rowOf (leaves ++ [leaf]) =
      workspaceEntry (tabChildren leaves.length ++ [.node (tabId leaves.length)]) ::
        (leaves.mapIdx fun i leaf => tabEntry i [.leaf leaf]) ++ [tabEntry leaves.length [.leaf leaf]] := by
  simp [rowOf, tabChildren, List.range_succ, List.mapIdx_append]

theorem entries_modifyNode {g : Containers} {id : NodeId} {n : ContainerNode}
    (h : (id, n) ∈ g.nodes.entries) (f : ContainerNode → ContainerNode) :
    (g.modifyNode id f).nodes.entries =
      g.nodes.entries.map fun e => if e.1 = id then (id, f n) else e := by
  have hn : g.node? id = some n := g.nodes.get?_of_mem h
  rw [modifyNode, hn]
  rfl

theorem has_of_mem {g : Containers} {id : NodeId} {n : ContainerNode} (h : (id, n) ∈ g.nodes.entries) :
    g.has id = true := by
  rw [has, decide_eq_true_eq]
  exact List.mem_map_of_mem h

theorem Row.keys {g : Containers} {leaves : List SessionId} (h : Row g leaves) :
    g.nodes.keys = ⟨1⟩ :: (List.range leaves.length).map tabId := by
  rw [Table.keys, h.entries, keys_rowOf]

theorem Row.next_notMem {g : Containers} {leaves : List SessionId} (h : Row g leaves)
    (hfits : Fits leaves.length) : tabId leaves.length ∉ g.nodes.keys := by
  rw [h.keys]
  simp only [List.mem_cons, List.mem_map, List.mem_range, not_or, not_exists, not_and]
  refine ⟨tabId_ne_one hfits, fun i hi heq => ?_⟩
  have hfit : Fits i := Nat.lt_trans (Nat.add_lt_add_right hi 2) hfits
  exact Nat.ne_of_lt hi ((tabId_inj hfit hfits).mp heq)

theorem Row.allocate {g : Containers} {leaves : List SessionId} (h : Row g leaves)
    (hfits : Fits (leaves.length + 1)) (turns : Nat) :
    (allocateNodeId (turns + 1)).exec g =
      (.ok (tabId leaves.length), { g with nextNode := UInt64.ofNat (leaves.length + 1 + 2) }) := by
  have hshort : Fits leaves.length := Nat.lt_of_succ_lt hfits
  have hnext : (⟨g.nextNode⟩ : NodeId) = tabId leaves.length := by rw [h.next, tabId]
  have hlast : g.nextNode ≠ 18446744073709551615 := by
    intro heq
    have hval := congrArg UInt64.toNat heq
    rw [h.next, UInt64.toNat_ofNat_of_lt' hshort] at hval
    simp only [Fits] at hfits
    simp at hval
    omega
  have hfree : g.has (tabId leaves.length) = false := by
    simpa [has] using h.next_notMem hshort
  have hsucc : g.nextNode + 1 = UInt64.ofNat (leaves.length + 1 + 2) := by
    rw [h.next, ← UInt64.toNat_inj, UInt64.toNat_add, UInt64.toNat_ofNat_of_lt' hshort,
      UInt64.toNat_ofNat_of_lt' hfits, UInt64.toNat_one, Nat.mod_eq_of_lt]
    · simp only [Fits] at hfits
      omega
  rw [allocateNodeId, Op.exec_get_bind, Op.exec_modify_bind, if_neg hlast, hnext, hfree, ← hsucc]
  rfl

/-- The next tab is made behind the others, below the workspace and without a leaf. -/
theorem Row.createNode {g : Containers} {leaves : List SessionId} (h : Row g leaves)
    (hfits : Fits (leaves.length + 1)) (turns : Nat) :
    ∃ g', (Containers.createNode (turns + 1) .tab (some ⟨1⟩)).exec g = (.ok (tabId leaves.length), g') ∧
      g'.kernel = g.kernel ∧ g'.nextNode = UInt64.ofNat (leaves.length + 1 + 2) ∧
      g'.nodes.entries =
        workspaceEntry (tabChildren leaves.length ++ [.node (tabId leaves.length)]) ::
          (leaves.mapIdx fun i leaf => tabEntry i [.leaf leaf]) ++ [tabEntry leaves.length []] := by
  have hshort : Fits leaves.length := Nat.lt_of_succ_lt hfits
  have hone : g.has ⟨1⟩ = true := by simp [has, h.keys]
  let g₁ : Containers := { g with nextNode := UInt64.ofNat (leaves.length + 1 + 2) }
  let g₂ : Containers := g₁.insertNode (tabId leaves.length) ⟨.tab, some ⟨1⟩, []⟩
  have hentries : g₂.nodes.entries = rowOf leaves ++ [tabEntry leaves.length []] := by
    have hinsert : (g.nodes.insert (tabId leaves.length) ⟨.tab, some ⟨1⟩, []⟩).entries =
        g.nodes.entries ++ [(tabId leaves.length, ⟨.tab, some ⟨1⟩, []⟩)] := by
      rw [Table.insert, dif_neg (h.next_notMem hshort)]
    rw [← h.entries]
    exact hinsert
  have hmem : (⟨1⟩, ⟨.workspace, none, tabChildren leaves.length⟩) ∈ g₂.nodes.entries := by
    rw [hentries]
    exact List.mem_append_left _ List.mem_cons_self
  refine ⟨g₂.modifyNode ⟨1⟩ fun n => n.link (.node (tabId leaves.length)), ?_, ?_, ?_, ?_⟩
  · rw [Containers.createNode, Op.exec_get_bind]
    rw [Op.exec_guard_neg (by simp [hone]), Op.exec_bind_ok (h.allocate hfits turns),
      Op.exec_modify_bind]
    dsimp only
    rw [Op.exec_get_bind]
    have hstill : g₂.has ⟨1⟩ = true := has_of_mem hmem
    rw [if_pos hstill, Op.exec_modify_bind]
    rfl
  · rw [modifyNode]
    split <;> rfl
  · rw [modifyNode]
    split <;> rfl
  · rw [entries_modifyNode hmem, hentries]
    have htabs : ∀ e ∈ (leaves.mapIdx fun i leaf => tabEntry i [.leaf leaf]) ++ [tabEntry leaves.length []],
        e.1 ≠ ⟨1⟩ := by
      intro e he
      rcases List.mem_append.mp he with he | he
      · obtain ⟨i, hi, rfl⟩ := List.mem_mapIdx.mp he
        exact tabId_ne_one (Nat.lt_trans (Nat.add_lt_add_right hi 2) hshort)
      · rw [List.mem_singleton.mp he]
        exact tabId_ne_one hshort
    rw [rowOf, List.cons_append, List.map_cons, List.cons_append]
    congr 1
    exact (List.map_congr_left fun e he => if_neg (htabs e he)).trans (List.map_id _)

/-- The leaf is put into the tab that was made last. -/
theorem attachLeaf_last {g : Containers} {leaves : List SessionId} {leaf : SessionId} {tabs : List NodeChild}
    (hfits : Fits leaves.length) (hleaf : (g.kernel.session leaf).isSome)
    (hentries : g.nodes.entries = workspaceEntry tabs ::
      (leaves.mapIdx fun i leaf => tabEntry i [.leaf leaf]) ++ [tabEntry leaves.length []]) :
    ∃ g', (attachLeaf (tabId leaves.length) leaf).exec g = (.ok (), g') ∧ g'.kernel = g.kernel ∧
      g'.nextNode = g.nextNode ∧ g'.nodes.entries = workspaceEntry tabs ::
        (leaves.mapIdx fun i leaf => tabEntry i [.leaf leaf]) ++ [tabEntry leaves.length [.leaf leaf]] := by
  have hmem : (tabId leaves.length, ⟨.tab, some ⟨1⟩, []⟩) ∈ g.nodes.entries := by
    rw [hentries]
    exact List.mem_append_right _ List.mem_cons_self
  refine ⟨g.modifyNode (tabId leaves.length) fun n => n.link (.leaf leaf), ?_, ?_, ?_, ?_⟩
  · rw [attachLeaf, Op.exec_get_bind, Op.exec_guard_neg (by simpa [Option.isSome_iff_ne_none] using hleaf),
      Op.exec_guard_neg (by simp [has_of_mem hmem])]
    rfl
  · rw [modifyNode]
    split <;> rfl
  · rw [modifyNode]
    split <;> rfl
  · rw [entries_modifyNode hmem, hentries, List.map_append, List.map_cons]
    have hothers : ∀ e ∈ leaves.mapIdx fun i leaf => tabEntry i [.leaf leaf], e.1 ≠ tabId leaves.length := by
      intro e he heq
      obtain ⟨i, hi, rfl⟩ := List.mem_mapIdx.mp he
      have hfit : Fits i := Nat.lt_trans (Nat.add_lt_add_right hi 2) hfits
      exact Nat.ne_of_lt hi ((tabId_inj hfit hfits).mp heq)
    have hone : (workspaceEntry tabs).1 ≠ tabId leaves.length := (tabId_ne_one hfits).symm
    rw [if_neg hone, List.map_congr_left fun e he => if_neg (hothers e he), List.map_id']
    simp [tabEntry, ContainerNode.link]

theorem Row.addTab {g : Containers} {leaves : List SessionId} {leaf : SessionId} (h : Row g leaves)
    (hfits : Fits (leaves.length + 1)) (hleaf : (g.kernel.session leaf).isSome) (hnew : leaf ∉ leaves)
    (turns : Nat) :
    ∃ g', ((Containers.createNode (turns + 1) .tab (some ⟨1⟩)) >>= fun tab => attachLeaf tab leaf).exec g =
        (.ok (), g') ∧ g'.kernel = g.kernel ∧ Row g' (leaves ++ [leaf]) := by
  obtain ⟨g₁, hcreate, hkernel₁, hnext₁, hentries₁⟩ := h.createNode hfits turns
  rw [← hkernel₁] at hleaf
  obtain ⟨g₂, hattach, hkernel₂, hnext₂, hentries₂⟩ :=
    attachLeaf_last (Nat.lt_of_succ_lt hfits) hleaf hentries₁
  refine ⟨g₂, ?_, hkernel₂.trans hkernel₁, ?_, ?_, ?_, ?_⟩
  · rw [Op.exec_bind_ok hcreate, hattach]
  · rw [hentries₂, rowOf_concat]
  · rw [hnext₂, hnext₁, List.length_append, List.length_singleton]
  · rw [List.nodup_append]
    refine ⟨h.nodup, List.nodup_singleton leaf, ?_⟩
    rintro a ha b hb rfl
    exact hnew (List.mem_singleton.mp hb ▸ ha)
  · rw [hkernel₂]
    rw [hkernel₁] at hleaf ⊢
    simpa [or_imp, forall_and, hleaf] using h.live

-- ---------------------------------------------------------------------------
-- The line of a row
-- ---------------------------------------------------------------------------

/-- The line that lists tabs with these leaves: they are numbered from 2 on. -/
def tabLine (leaves : List SessionId) : String :=
  "ws=1 tabs=" ++ ",".intercalate ((List.range leaves.length).map fun i => (i + 2).repr) ++
    " leaves=" ++ ",".intercalate (leaves.map fun leaf => leaf.raw.toNat.repr) ++ "\n"

theorem Row.tabRows {g : Containers} {leaves : List SessionId} (h : Row g leaves)
    (hfits : Fits leaves.length) :
    g.tabRows = leaves.mapIdx fun i leaf => ⟨tabId i, .tab, some ⟨1⟩, [.leaf leaf]⟩ := by
  have hraw : ∀ i < leaves.length, (tabId i).raw.toNat = i + 2 := fun i hi =>
    UInt64.toNat_ofNat_of_lt' (Nat.lt_trans (Nat.add_lt_add_right hi 2) hfits)
  have hsorted : g.nodes.keys.Pairwise fun a b => a.raw < b.raw := by
    rw [h.keys, List.pairwise_cons, List.pairwise_map]
    constructor
    · intro id hid
      obtain ⟨i, hi, rfl⟩ := List.mem_map.mp hid
      rw [UInt64.lt_iff_toNat_lt, hraw i (List.mem_range.mp hi)]
      exact Nat.le_add_left 2 i
    · refine List.pairwise_lt_range.imp_of_mem fun {i j} hi hj hij => ?_
      rw [UInt64.lt_iff_toNat_lt, hraw i (List.mem_range.mp hi), hraw j (List.mem_range.mp hj)]
      exact Nat.add_lt_add_right hij 2
  rw [Containers.tabRows, containerSnapshot_of_pairwise hsorted, h.entries, rowOf, List.map_cons,
    List.filter_cons_of_neg (by simp [workspaceEntry]), List.filter_eq_self.mpr]
  · exact List.ext_getElem (by simp) fun i _ _ => by simp [tabEntry]
  · intro row hrow
    obtain ⟨e, he, rfl⟩ := List.mem_map.mp hrow
    obtain ⟨i, hi, rfl⟩ := List.mem_mapIdx.mp he
    rfl

theorem Row.navSnapshotLine {g : Containers} {leaves : List SessionId} (h : Row g leaves)
    (hfits : Fits leaves.length) : navSnapshotLine ⟨1⟩ g = tabLine leaves := by
  have htabs : g.tabIds.map (fun id => id.toNat.repr) =
      (List.range leaves.length).map fun i => (i + 2).repr := by
    rw [tabIds, h.tabRows hfits]
    refine List.ext_getElem (by simp) fun i hi _ => ?_
    have hlt : i + 2 < UInt64.size := by
      have hlen : i < leaves.length := by simpa using hi
      exact Nat.lt_trans (Nat.add_lt_add_right hlen 2) hfits
    simp only [List.getElem_map, List.getElem_mapIdx, List.getElem_range, tabId]
    rw [UInt64.toNat_ofNat_of_lt' hlt]
  have hleaves : g.leafIds = leaves.map SessionId.raw := by
    rw [leafIds, h.tabRows hfits]
    refine List.ext_getElem (by simp) fun i _ _ => ?_
    simp [ContainerSnapshot.firstLeaf, NodeChild.leaf?]
  have hone : (1 : UInt64).toNat.repr = "1" := rfl
  simp only [Containers.navSnapshotLine, htabs, hleaves, List.map_map, tabLine, hone]
  rfl

-- ---------------------------------------------------------------------------
-- The service
-- ---------------------------------------------------------------------------

def leaves (first : SessionId) (s : NavService) : List SessionId :=
  first :: s.replies.map NewTab.leaf

/-- The tabs are those that were asked for, and each answer lists the tabs there were up to its
own. -/
structure Lists (first : SessionId) (s : NavService) : Prop where
  workspace : s.workspaceId = ⟨1⟩
  row : Row s.containers (s.leaves first)
  fits : Fits (s.leaves first).length
  next : s.containers.kernel.next ≠ 0
  lines : ∀ i r, s.replies[i]? = some r →
    r.line = tabLine (first :: (s.replies.take (i + 1)).map NewTab.leaf)

structure Spare (s : NavService) (n : Nat) : Prop where
  nodes : s.containers.nodes.keys.length + n + 2 < 18446744073709551616
  leaves : s.containers.kernel.ids.length + n < 18446744073709551615

/-- A tab that was asked for is made, with a leaf that no tab has. -/
theorem Lists.spawnTabLeaf {first : SessionId} {s t : NavService} {turns : Nat} {leaf : SessionId}
    {n : Nat} (h : Lists first s) (hspare : Spare s (n + 1))
    (hrun : (spawnTabLeaf (turns + 1)).exec s = (.ok leaf, t)) :
    Row t.containers (s.leaves first ++ [leaf]) ∧ t.containers.kernel.next ≠ 0 ∧ Spare t n ∧
      t.workspaceId = ⟨1⟩ ∧ t.conns = s.conns ∧ t.closed = s.closed ∧ t.replies = s.replies ∧
      t.accepted = s.accepted := by
  rw [NavService.spawnTabLeaf, Op.exec_get_bind] at hrun
  cases hspawns : s.spawns with
  | nil =>
    rw [hspawns] at hrun
    cases hrun
  | cons session spawns =>
    rw [hspawns] at hrun
    dsimp only at hrun
    rw [Op.exec_modify_bind, h.workspace] at hrun
    have hids : s.containers.kernel.HasIds :=
      ⟨h.next, Nat.lt_of_le_of_lt (Nat.le_add_right _ (n + 1)) hspare.leaves⟩
    have hnew := spawnLeaf_notMem hids session
    have hkeys := ids_spawnLeaf hids session
    have hnext := next_spawnLeaf s.containers.kernel session
    rcases hspawn : s.containers.kernel.spawnLeaf session with ⟨leaf', kernel⟩
    rw [hspawn] at hrun hnew hkeys hnext
    dsimp only at hrun hnew hkeys hnext
    have hlive : ∀ l, l ∈ s.containers.kernel.ids → (kernel.session l).isSome := by
      intro l hl
      rw [← mem_ids_iff, hkeys]
      exact List.mem_append_left _ hl
    have hrow : Row { s.containers with kernel } (s.leaves first) :=
      ⟨h.row.entries, h.row.next, h.row.nodup, fun l hl => hlive l (mem_ids_iff.mpr (h.row.live l hl))⟩
    have hleaf : (kernel.session leaf').isSome := by
      rw [← mem_ids_iff, hkeys]
      exact List.mem_append_right _ List.mem_cons_self
    have hnot : leaf' ∉ s.leaves first := fun hmem => hnew (mem_ids_iff.mpr (h.row.live leaf' hmem))
    have hlen : s.containers.nodes.keys.length = (s.leaves first).length + 1 := by
      rw [h.row.keys]
      simp
    have hfits : Fits ((s.leaves first).length + 1) := by
      have hnodes := hspare.nodes
      rw [hlen] at hnodes
      simp only [Fits]
      omega
    obtain ⟨g, hmade, hkernel, hrow'⟩ := hrow.addTab hfits hleaf hnot turns
    obtain ⟨tab, g₁, hcreate, hattach⟩ := Op.exec_bind_eq_ok.mp hmade
    let s₁ : NavService :=
      { s with containers := { s.containers with kernel }, workspaceId := ⟨1⟩, spawns }
    have hfirst : (onContainers (createNode (turns + 1) .tab (some ⟨1⟩))).exec s₁ =
        (.ok tab, { s₁ with containers := g₁ }) := by
      rw [onContainers, Op.exec_on, hcreate]
    have hsecond : (onContainers (attachLeaf tab leaf')).exec { s₁ with containers := g₁ } =
        (.ok (), { s₁ with containers := g }) := by
      rw [onContainers, Op.exec_on, hattach]
    have hrest : (do
        let tab ← onContainers (createNode (turns + 1) .tab (some ⟨1⟩))
        onContainers (attachLeaf tab leaf')
        pure leaf' : NavM SessionId).exec s₁ = (.ok leaf, t) := hrun
    rw [Op.exec_bind_ok hfirst, Op.exec_bind_ok hsecond, Op.exec_pure] at hrest
    obtain ⟨hok, rfl⟩ := Prod.mk.inj hrest
    obtain rfl := Except.ok.inj hok
    refine ⟨hrow', ?_, ⟨?_, ?_⟩, rfl, rfl, rfl, rfl, rfl⟩
    · rwa [hkernel]
    · have hnodes := hspare.nodes
      rw [hlen] at hnodes
      rw [hrow'.keys]
      simp only [List.length_cons, List.length_map, List.length_range, List.length_append, List.length_nil]
      omega
    · have hleaves := hspare.leaves
      have hids : kernel.ids.length = s.containers.kernel.ids.length + 1 := by rw [hkeys]; simp
      rw [hkernel, hids]
      omega

/-- A new answer lists all the tabs, its own last. -/
theorem Lists.answer {first : SessionId} {s t : NavService} {turns : Nat} {leaf : SessionId} {n : Nat}
    (h : Lists first s) (hspare : Spare s (n + 1))
    (hrun : (NavService.spawnTabLeaf (turns + 1)).exec s = (.ok leaf, t)) (c : NavConnection) :
    Lists first (t.answer c leaf) ∧ Spare (t.answer c leaf) n := by
  obtain ⟨hrow, hnext, hspare', hworkspace, -, -, hreplies, -⟩ := h.spawnTabLeaf hspare hrun
  have hleaves : (t.answer c leaf).leaves first = s.leaves first ++ [leaf] := by
    simp [leaves, NavService.answer, hreplies]
  have hfits : Fits (s.leaves first ++ [leaf]).length := by
    have hnodes := hspare'.nodes
    rw [hrow.keys] at hnodes
    simp only [List.length_cons, List.length_map, List.length_range] at hnodes
    simp only [Fits]
    omega
  have hline : t.line = tabLine (s.leaves first ++ [leaf]) := by
    rw [line, hworkspace, hrow.navSnapshotLine hfits]
  refine ⟨⟨hworkspace, ?_, ?_, hnext, ?_⟩, ⟨hspare'.nodes, hspare'.leaves⟩⟩
  · rw [hleaves]
    exact hrow
  · rw [hleaves]
    exact hfits
  · intro i r hr
    have hall : (t.answer c leaf).replies = s.replies ++ [⟨c.number, leaf, t.line⟩] := by
      rw [NavService.answer, hreplies]
    rw [hall] at hr ⊢
    rcases Nat.lt_or_ge i s.replies.length with hlt | hge
    · rw [List.getElem?_append_left hlt] at hr
      rw [List.take_append_of_le_length hlt]
      exact h.lines i r hr
    · obtain ⟨hi, rfl⟩ : i = s.replies.length ∧ r = ⟨c.number, leaf, t.line⟩ := by
        rw [List.getElem?_append_right hge, List.getElem?_singleton] at hr
        split at hr
        case isTrue hzero =>
          exact ⟨Nat.le_antisymm (Nat.sub_eq_zero_iff_le.mp hzero) hge, (Option.some.inj hr).symm⟩
        case isFalse => cases hr
      rw [List.take_of_length_le (by simp [hi]), hline]
      simp [leaves]

-- ---------------------------------------------------------------------------
-- Who is answered
-- ---------------------------------------------------------------------------

/-- Of the connections that are gone, those that asked for a tab were answered, once each; the
ones that wait have not been heard. -/
structure Fair (s : NavService) (waiting : List NavConnection) : Prop where
  numbers : ((waiting ++ s.closed).map NavConnection.number).Nodup
  below : ∀ c ∈ waiting ++ s.closed, c.number < s.accepted
  unheard : ∀ c ∈ waiting, c.heard = []
  once : (s.replies.map NewTab.number).Nodup
  known : ∀ r ∈ s.replies, r.number ∈ s.closed.map NavConnection.number
  asked : ∀ c ∈ s.closed, c.number ∈ s.replies.map NewTab.number ↔ asksNewTab c.heard = true

namespace Fair

variable {s t : NavService} {waiting : List NavConnection} {c c' : NavConnection}

theorem keep (h : Fair s (c :: waiting ++ s.conns)) (hnumber : c'.number = c.number)
    (hheard : c'.heard = []) : Fair (s.keep c') (waiting ++ (s.keep c').conns) := by
  have hperm : (c :: waiting ++ s.conns ++ s.closed).Perm (waiting ++ s.conns ++ c :: s.closed) :=
    List.perm_middle.symm
  refine ⟨?_, ?_, ?_, h.once, h.known, h.asked⟩
  · have hnodup := (hperm.map NavConnection.number).nodup_iff.mp h.numbers
    simpa [NavService.keep, hnumber] using hnodup
  · have hbelow := h.below
    simp only [NavService.keep, List.mem_append, List.mem_cons, List.not_mem_nil, or_false] at hbelow ⊢
    rintro x ((hx | hx | rfl) | hx)
    · exact hbelow x (.inl (.inl (.inr hx)))
    · exact hbelow x (.inl (.inr hx))
    · rw [hnumber]
      exact hbelow c (.inl (.inl (.inl rfl)))
    · exact hbelow x (.inr hx)
  · have hunheard := h.unheard
    simp only [NavService.keep, List.mem_append, List.mem_cons, List.not_mem_nil, or_false] at hunheard ⊢
    rintro x (hx | hx | rfl)
    · exact hunheard x (.inl (.inr hx))
    · exact hunheard x (.inr hx)
    · exact hheard

theorem unanswered (h : Fair s (c :: waiting)) {r : NewTab} (hr : r ∈ s.replies) :
    r.number ≠ c.number := by
  intro heq
  have hnumbers := h.numbers
  rw [List.cons_append, List.map_cons, List.nodup_cons, List.map_append, List.mem_append, not_or] at hnumbers
  exact hnumbers.1.2 (heq ▸ h.known r hr)

/-- A connection goes, with the answer to what it asked. -/
theorem close (more : List NewTab) (h : Fair s (c :: waiting)) (hnumber : c'.number = c.number)
    (hclosed : t.closed = s.closed ++ [c']) (haccepted : t.accepted = s.accepted)
    (hreplies : t.replies = s.replies ++ more)
    (hmore : more.map NewTab.number = if asksNewTab c'.heard then [c'.number] else []) :
    Fair t waiting := by
  have hnumbers := h.numbers
  rw [List.cons_append, List.map_cons, List.nodup_cons, List.map_append, List.mem_append, not_or] at hnumbers
  obtain ⟨⟨hwaiting, hnew⟩, hnodup⟩ := hnumbers
  rw [← hnumber] at hwaiting hnew
  have hunknown : c'.number ∉ s.replies.map NewTab.number := by
    intro hmem
    obtain ⟨r, hr, heq⟩ := List.mem_map.mp hmem
    exact h.unanswered hr (heq.trans hnumber)
  have hperm : (c' :: (waiting ++ s.closed)).Perm (waiting ++ t.closed) := by
    rw [hclosed, ← List.append_assoc]
    exact (List.perm_append_singleton c' _).symm
  have hsplit : t.replies.map NewTab.number =
      s.replies.map NewTab.number ++ if asksNewTab c'.heard then [c'.number] else [] := by
    rw [hreplies, List.map_append, hmore]
  refine ⟨?_, ?_, fun x hx => h.unheard x (List.mem_cons_of_mem _ hx), ?_, ?_, ?_⟩
  · refine (hperm.map NavConnection.number).nodup_iff.mp ?_
    rw [List.map_cons, List.nodup_cons, List.map_append]
    exact ⟨by simp [hwaiting, hnew], by simpa using hnodup⟩
  · intro x hx
    rw [haccepted]
    rcases List.mem_cons.mp (hperm.mem_iff.mpr hx) with rfl | hx
    · rw [hnumber]
      exact h.below c List.mem_cons_self
    · exact h.below x (List.mem_cons_of_mem _ hx)
  · rw [hsplit]
    split
    · exact h.once.append (List.nodup_singleton _) (List.disjoint_singleton.mpr hunknown)
    · simpa using h.once
  · intro r hr
    rw [hclosed, List.map_append, List.mem_append]
    rw [hreplies] at hr
    rcases List.mem_append.mp hr with hr | hr
    · exact .inl (h.known r hr)
    · have hmem := List.mem_map_of_mem (f := NewTab.number) hr
      rw [hmore] at hmem
      split at hmem
      · exact .inr hmem
      · cases hmem
  · intro x hx
    rw [hsplit]
    rw [hclosed] at hx
    rcases List.mem_append.mp hx with hx | hx
    · have hne : x.number ≠ c'.number := by
        intro heq
        exact hnew (heq ▸ List.mem_map_of_mem hx)
      rw [← h.asked x hx]
      split
      · simp [hne]
      · simp
    · obtain rfl := List.mem_singleton.mp hx
      split
      case isTrue hasks => simp [hasks]
      case isFalse hasks => simp [hasks, hunknown]

theorem accept (h : Fair s s.conns) (reads : List Read) (writes : List Write) :
    Fair (s.accept reads writes) (s.accept reads writes).conns := by
  let c := (NavConnection.new reads writes s.accepted).write s.line
  have hnew : ∀ x ∈ s.conns ++ s.closed, x.number ≠ s.accepted := fun x hx => Nat.ne_of_lt (h.below x hx)
  have hstart : Fair { s with accepted := s.accepted + 1 } (c.2 :: s.conns) := by
    refine ⟨?_, ?_, ?_, h.once, h.known, h.asked⟩
    · rw [List.cons_append, List.map_cons, List.nodup_cons]
      refine ⟨fun hmem => ?_, h.numbers⟩
      obtain ⟨x, hx, heq⟩ := List.mem_map.mp hmem
      exact hnew x hx heq
    · rintro x (_ | ⟨_, hx⟩)
      · exact Nat.lt_succ_self _
      · exact Nat.lt_succ_of_lt (h.below x hx)
    · rintro x (_ | ⟨_, hx⟩)
      · rfl
      · exact h.unheard x hx
  have hends : s.accept reads writes =
      if c.1 then { s with accepted := s.accepted + 1, conns := s.conns ++ [c.2] }
      else { s with accepted := s.accepted + 1, closed := s.closed ++ [c.2] } := rfl
  rw [hends]
  split
  · have hkept : Fair { s with accepted := s.accepted + 1 } (c.2 :: [] ++ s.conns) := hstart
    exact hkept.keep rfl rfl
  · have hsilent : asksNewTab [] = false := by decide
    have hheard : c.2.heard = [] := rfl
    rw [← hheard] at hsilent
    exact hstart.close [] rfl rfl rfl (by simp) (by simp [hsilent])

end Fair

-- ---------------------------------------------------------------------------
-- What is sent
-- ---------------------------------------------------------------------------

def answerTo (s : NavService) (number : Nat) : List UInt8 :=
  (s.replies.find? fun r => r.number = number).elim [] fun r => asBytes r.line

theorem answerTo_of_forall_ne {s : NavService} {number : Nat} (h : ∀ r ∈ s.replies, r.number ≠ number) :
    s.answerTo number = [] := by
  rw [answerTo, List.find?_eq_none.mpr (by simpa using h)]
  rfl

/-- A connection was sent a line of the tabs there were at one time and its answer behind that, up to
where its socket stopped taking each of them. -/
def Told (first : SessionId) (s : NavService) (c : NavConnection) : Prop :=
  ∃ n ≤ s.replies.length, ∃ greeting answer, c.stream.sent = greeting ++ answer ∧
    greeting <+: asBytes (tabLine (first :: (s.replies.take n).map NewTab.leaf)) ∧
    answer <+: s.answerTo c.number ∧
    (c.lost = [] → c.stream.sent =
      asBytes (tabLine (first :: (s.replies.take n).map NewTab.leaf)) ++ s.answerTo c.number)

namespace Told

variable {first : SessionId} {s t : NavService} {c c' : NavConnection}

theorem others (h : Told first s c) {more : List NewTab} (hreplies : t.replies = s.replies ++ more)
    (hmore : ∀ r ∈ more, r.number ≠ c.number) (hnumber : c'.number = c.number)
    (hsent : c'.stream.sent = c.stream.sent) (hlost : c'.lost = c.lost) : Told first t c' := by
  obtain ⟨n, hn, greeting, answer, hbytes, hgreeting, hanswer, hwhole⟩ := h
  have hanswers : t.answerTo c'.number = s.answerTo c.number := by
    have hnone : more.find? (fun r => r.number = c.number) = none :=
      List.find?_eq_none.mpr (by simpa using hmore)
    rw [answerTo, hreplies, hnumber, List.find?_append, hnone, Option.or_none]
    rfl
  refine ⟨n, ?_, greeting, answer, ?_⟩
  · rw [hreplies, List.length_append]
    exact Nat.le_trans hn (Nat.le_add_right _ _)
  · rw [hsent, hlost, hanswers, hreplies, List.take_append_of_le_length hn]
    exact ⟨hbytes, hgreeting, hanswer, hwhole⟩

theorem same (h : Told first s c) (hnumber : c'.number = c.number)
    (hsent : c'.stream.sent = c.stream.sent) (hlost : c'.lost = c.lost)
    (hreplies : t.replies = s.replies) : Told first t c' :=
  h.others (by rw [hreplies, List.append_nil]) (List.forall_mem_nil _) hnumber hsent hlost

/-- The answer comes behind the line that it was sent first. -/
theorem answered (h : Told first s c) (hnone : ∀ r ∈ s.replies, r.number ≠ c.number) {leaf : SessionId}
    {line : String} (hreplies : t.replies = s.replies ++ [⟨c.number, leaf, line⟩]) :
    Told first t (c.write line).2 := by
  obtain ⟨n, hn, greeting, answer, hbytes, hgreeting, hanswer, hwhole⟩ := h
  rw [answerTo_of_forall_ne hnone] at hanswer hwhole
  obtain rfl := List.prefix_nil.mp hanswer
  obtain ⟨out, lost, hout, hlost, hline⟩ := c.write_spec line
  have hanswers : t.answerTo c.number = asBytes line := by
    have hskip : s.replies.find? (fun r => r.number = c.number) = none :=
      List.find?_eq_none.mpr (by simpa using hnone)
    rw [answerTo, hreplies, List.find?_append, hskip]
    simp
  refine ⟨n, ?_, greeting, out, ?_, ?_, ?_, fun hempty => ?_⟩
  · rw [hreplies, List.length_append]
    exact Nat.le_trans hn (Nat.le_add_right _ _)
  · rw [hout, hbytes, List.append_nil]
  · rwa [hreplies, List.take_append_of_le_length hn]
  · have hnumber : t.answerTo (c.write line).2.number = asBytes line := hanswers
    rw [hnumber]
    exact ⟨lost, hline⟩
  · rw [hlost, List.append_eq_nil_iff] at hempty
    rw [hempty.2, List.append_nil] at hline
    have hnumber : t.answerTo (c.write line).2.number = asBytes line := hanswers
    rw [hreplies, List.take_append_of_le_length hn, hnumber, hout, hwhole hempty.1, hline, List.append_nil]

theorem accept (hlists : Lists first s) (reads : List Read) (writes : List Write) {number : Nat}
    (hnone : ∀ r ∈ s.replies, r.number ≠ number) :
    Told first s ((NavConnection.new reads writes number).write s.line).2 := by
  obtain ⟨out, lost, hout, hlost, hline⟩ := (NavConnection.new reads writes number).write_spec s.line
  have hnumber : s.answerTo ((NavConnection.new reads writes number).write s.line).2.number = [] :=
    answerTo_of_forall_ne hnone
  have hrow : s.line = tabLine (first :: (s.replies.take s.replies.length).map NewTab.leaf) := by
    rw [line, hlists.workspace, hlists.row.navSnapshotLine hlists.fits, List.take_length]
    rfl
  refine ⟨s.replies.length, Nat.le_refl _, out, [], ?_, ?_, List.nil_prefix, fun hempty => ?_⟩
  · rw [hout, List.append_nil]
    rfl
  · rw [← hrow]
    exact ⟨lost, hline⟩
  · rw [hlost] at hempty
    obtain rfl : lost = [] := hempty
    rw [List.append_nil] at hline
    rw [← hrow, hnumber, hout, hline, List.append_nil]
    rfl

end Told

-- ---------------------------------------------------------------------------
-- Runs
-- ---------------------------------------------------------------------------

/-- What holds while a poll goes through the connections `todo`. -/
structure Going (first : SessionId) (s : NavService) (todo : List NavConnection) : Prop where
  lists : Lists first s
  fair : Fair s (todo ++ s.conns)
  told : ∀ c ∈ todo ++ s.conns ++ s.closed, Told first s c
  spare : Spare s todo.length

theorem Going.remove {first : SessionId} {s : NavService} {c c' : NavConnection}
    {todo : List NavConnection} (h : Going first s (c :: todo)) (hnumber : c'.number = c.number)
    (hsent : c'.stream.sent = c.stream.sent) (hlost : c'.lost = c.lost)
    (hsilent : asksNewTab c'.heard = false) : Going first (s.remove c') todo where
  lists := ⟨h.lists.workspace, h.lists.row, h.lists.fits, h.lists.next, h.lists.lines⟩
  fair := h.fair.close [] hnumber rfl rfl (by simp [NavService.remove])
    (by simp [hsilent])
  told x hx := by
    have htold := h.told
    simp only [NavService.remove, List.mem_append, List.mem_cons, List.not_mem_nil, or_false] at hx htold
    rcases hx with hx | hx | rfl
    · exact (htold x (.inl (hx.imp_left .inr))).same rfl rfl rfl rfl
    · exact (htold x (.inr hx)).same rfl rfl rfl rfl
    · exact (htold c (.inl (.inl (.inl rfl)))).same hnumber hsent hlost rfl
  spare := ⟨Nat.lt_of_succ_lt h.spare.nodes, Nat.lt_of_succ_lt h.spare.leaves⟩

theorem Going.keep {first : SessionId} {s : NavService} {c c' : NavConnection}
    {todo : List NavConnection} (h : Going first s (c :: todo)) (hnumber : c'.number = c.number)
    (hsent : c'.stream.sent = c.stream.sent) (hlost : c'.lost = c.lost)
    (hheard : c'.heard = []) : Going first (s.keep c') todo where
  lists := ⟨h.lists.workspace, h.lists.row, h.lists.fits, h.lists.next, h.lists.lines⟩
  fair := h.fair.keep hnumber hheard
  told x hx := by
    have htold := h.told
    simp only [NavService.keep, List.mem_append, List.mem_cons, List.not_mem_nil, or_false] at hx htold
    rcases hx with (hx | hx | rfl) | hx
    · exact (htold x (.inl (.inl (.inr hx)))).same rfl rfl rfl rfl
    · exact (htold x (.inl (.inr hx))).same rfl rfl rfl rfl
    · exact (htold c (.inl (.inl (.inl rfl)))).same hnumber hsent hlost rfl
    · exact (htold x (.inr hx)).same rfl rfl rfl rfl
  spare := ⟨Nat.lt_of_succ_lt h.spare.nodes, Nat.lt_of_succ_lt h.spare.leaves⟩

/-- A connection that asked is answered, and goes. -/
theorem Going.answer {first : SessionId} {s u : NavService} {c c' : NavConnection}
    {todo : List NavConnection} {turns : Nat} {leaf : SessionId} (h : Going first s (c :: todo))
    (hspawn : (spawnTabLeaf (turns + 1)).exec s = (.ok leaf, u)) (hnumber : c'.number = c.number)
    (hsent : c'.stream.sent = c.stream.sent) (hlost : c'.lost = c.lost)
    (hasks : asksNewTab c'.heard = true) : Going first (u.answer c' leaf) todo := by
  obtain ⟨-, -, -, -, hconns, hclosed, hreplies, haccepted⟩ := h.lists.spawnTabLeaf h.spare hspawn
  obtain ⟨hlists, hspare⟩ := h.lists.answer h.spare hspawn c'
  have hclose : (u.answer c' leaf).closed = s.closed ++ [(c'.write u.line).2] := by
    rw [← hclosed]
    rfl
  have hreply : (u.answer c' leaf).replies = s.replies ++ [⟨c'.number, leaf, u.line⟩] := by
    rw [← hreplies]
    rfl
  have hopen : (u.answer c' leaf).conns = s.conns := hconns
  refine ⟨hlists, ?_, fun x hx => ?_, hspare⟩
  · have hnumber' : (c'.write u.line).2.number = c.number := hnumber
    have hkept : (c'.write u.line).2.heard = c'.heard := rfl
    have haccept : (u.answer c' leaf).accepted = s.accepted := haccepted
    rw [hopen]
    refine h.fair.close [⟨c'.number, leaf, u.line⟩] hnumber' hclose haccept hreply ?_
    rw [hkept, hasks]
    rfl
  · have hothers : ∀ x ∈ (todo ++ s.conns) ++ s.closed, c'.number ≠ x.number := by
      intro x hx heq
      have hnodup := h.fair.numbers
      rw [List.cons_append, List.cons_append, List.map_cons, List.nodup_cons] at hnodup
      exact hnodup.1 (hnumber ▸ heq ▸ List.mem_map_of_mem hx)
    have hrest : ∀ x ∈ (todo ++ s.conns) ++ s.closed, Told first (u.answer c' leaf) x := fun x hx =>
      (h.told x (List.mem_cons_of_mem c hx)).others hreply (by simpa using hothers x hx) rfl rfl rfl
    rw [hopen, hclose, ← List.append_assoc] at hx
    rcases List.mem_append.mp hx with hx | hx
    · exact hrest x hx
    · rw [List.mem_singleton.mp hx]
      have htold : Told first s c' :=
        (h.told c List.mem_cons_self).same hnumber hsent hlost rfl
      refine htold.answered (fun r hr => ?_) hreply
      rw [hnumber]
      exact h.fair.unanswered hr

theorem Going.pollConnection {first : SessionId} {s t : NavService} {c : NavConnection}
    {todo : List NavConnection} {turns : Nat} (h : Going first s (c :: todo))
    (hrun : (pollConnection (turns + 1) c).exec s = (.ok (), t)) : Going first t todo := by
  obtain ⟨hnumber, hsent, hlost, hheard⟩ := c.read_spec
  have hunheard : c.heard = [] := h.fair.unheard c List.mem_cons_self
  have hempty : asksNewTab [] = false := by decide
  rw [NavService.pollConnection] at hrun
  rcases hread : c.read with ⟨bytes | _ | _ | _, c'⟩
  · rw [hread] at hrun hnumber hsent hlost hheard
    obtain ⟨_, heq, hbytes⟩ | ⟨hno, -⟩ := hheard
    swap
    · exact absurd rfl (hno bytes)
    obtain rfl := Read.data.inj heq
    dsimp only at hrun hnumber hsent hlost hbytes
    cases hasks : asksNewTab bytes with
    | false =>
      rw [if_neg (by simp [hasks])] at hrun
      obtain ⟨-, rfl⟩ := Prod.mk.inj hrun
      exact h.remove hnumber hsent hlost (by rw [hbytes, hasks])
    | true =>
      rw [if_pos hasks] at hrun
      obtain ⟨leaf, u, hspawn, hanswer⟩ := Op.exec_bind_eq_ok.mp hrun
      obtain ⟨-, rfl⟩ := Prod.mk.inj hanswer
      exact h.answer hspawn hnumber hsent hlost (by rw [hbytes, hasks])
  · rw [hread] at hrun hnumber hsent hlost hheard
    obtain ⟨_, heq, -⟩ | ⟨-, hsame⟩ := hheard
    · cases heq
    · obtain ⟨-, rfl⟩ := Prod.mk.inj hrun
      dsimp only at hsame
      exact h.remove hnumber hsent hlost (by rw [hsame, hunheard, hempty])
  · rw [hread] at hrun hnumber hsent hlost hheard
    obtain ⟨_, heq, -⟩ | ⟨-, hsame⟩ := hheard
    · cases heq
    · obtain ⟨-, rfl⟩ := Prod.mk.inj hrun
      dsimp only at hsame
      exact h.keep hnumber hsent hlost (by rw [hsame, hunheard])
  · rw [hread] at hrun hnumber hsent hlost hheard
    obtain ⟨_, heq, -⟩ | ⟨-, hsame⟩ := hheard
    · cases heq
    · obtain ⟨-, rfl⟩ := Prod.mk.inj hrun
      dsimp only at hsame
      exact h.remove hnumber hsent hlost (by rw [hsame, hunheard, hempty])

theorem Going.forM {first : SessionId} {turns : Nat} {todo : List NavConnection} {s t : NavService}
    (h : Going first s todo)
    (hrun : (todo.forM (NavService.pollConnection (turns + 1))).exec s = (.ok (), t)) :
    Going first t [] := by
  induction todo generalizing s with
  | nil =>
    obtain ⟨-, rfl⟩ := Prod.mk.inj hrun
    exact h
  | cons c todo ih =>
    rw [Op.forM_cons] at hrun
    obtain ⟨_, u, hone, hrest⟩ := Op.exec_bind_eq_ok.mp hrun
    exact ih (h.pollConnection hone) hrest

/-- What happens to the service: a connection comes, the daemon polls them, or it does something
else with its leaves. -/
inductive Event
  | accept (reads : List Read) (writes : List Write)
  | poll
  | elsewhere (kernel : Kernel)

/-- Elsewhere the daemon has no leaf forgotten. -/
inductive Takes (s : NavService) : Event → NavService → Prop
  | accept (reads : List Read) (writes : List Write) : Takes s (.accept reads writes) (s.accept reads writes)
  | poll (turns : Nat) {t : NavService} (hrun : (poll (turns + 1)).exec s = (.ok (), t)) : Takes s .poll t
  | elsewhere {kernel : Kernel} (hids : s.containers.kernel.ids ⊆ kernel.ids)
      (hnext : s.containers.kernel.next ≠ 0 → kernel.next ≠ 0) :
      Takes s (.elsewhere kernel) { s with containers := { s.containers with kernel } }

/-- A poll has ids left for all who wait. -/
def HasRoom (s : NavService) : Event → Prop
  | .poll => Spare s s.conns.length
  | _ => True

structure Sound (first : SessionId) (s : NavService) : Prop where
  lists : Lists first s
  fair : Fair s s.conns
  told : ∀ c ∈ s.conns ++ s.closed, Told first s c

theorem Sound.takes {first : SessionId} {s t : NavService} {event : Event} (h : Sound first s)
    (hroom : s.HasRoom event) (htakes : Takes s event t) : Sound first t := by
  cases htakes with
  | accept reads writes =>
    have hfair := h.fair.accept reads writes
    have hnone : ∀ r ∈ s.replies, r.number ≠ s.accepted := by
      intro r hr
      obtain ⟨c, hc, heq⟩ := List.mem_map.mp (h.fair.known r hr)
      exact heq ▸ Nat.ne_of_lt (h.fair.below c (List.mem_append_right _ hc))
    have hnew := Told.accept h.lists reads writes hnone
    have htold := h.told
    rw [NavService.accept] at hfair ⊢
    generalize (NavConnection.new reads writes s.accepted).write s.line = written at hnew hfair ⊢
    obtain ⟨ok, c⟩ := written
    simp only [List.mem_append] at htold
    cases ok with
    | true =>
      refine ⟨⟨h.lists.workspace, h.lists.row, h.lists.fits, h.lists.next, h.lists.lines⟩, hfair, ?_⟩
      intro x hx
      simp only [if_true, NavService.keep, List.mem_append, List.mem_cons, List.not_mem_nil, or_false] at hx
      rcases hx with (hx | rfl) | hx
      · exact (htold x (.inl hx)).same rfl rfl rfl rfl
      · exact hnew.same rfl rfl rfl rfl
      · exact (htold x (.inr hx)).same rfl rfl rfl rfl
    | false =>
      refine ⟨⟨h.lists.workspace, h.lists.row, h.lists.fits, h.lists.next, h.lists.lines⟩, hfair, ?_⟩
      intro x hx
      simp only [Bool.false_eq_true, if_false, NavService.remove, List.mem_append, List.mem_cons,
        List.not_mem_nil, or_false] at hx
      rcases hx with hx | hx | rfl
      · exact (htold x (.inl hx)).same rfl rfl rfl rfl
      · exact (htold x (.inr hx)).same rfl rfl rfl rfl
      · exact hnew.same rfl rfl rfl rfl
  | poll turns hrun =>
    rw [NavService.poll, Op.exec_get_bind, Op.exec_modify_bind] at hrun
    have hgoing : Going first { s with conns := [] } s.conns :=
      ⟨⟨h.lists.workspace, h.lists.row, h.lists.fits, h.lists.next, h.lists.lines⟩,
        ⟨by simpa using h.fair.numbers, by simpa using h.fair.below, by simpa using h.fair.unheard,
          h.fair.once, h.fair.known, h.fair.asked⟩,
        fun c hc => (h.told c (by simpa using hc)).same rfl rfl rfl rfl, ⟨hroom.nodes, hroom.leaves⟩⟩
    have hends := hgoing.forM hrun
    exact ⟨hends.lists, hends.fair, hends.told⟩
  | elsewhere hids hnext =>
    have hrow := h.lists.row
    refine ⟨⟨h.lists.workspace, ⟨hrow.entries, hrow.next, hrow.nodup, fun leaf hleaf => ?_⟩,
      h.lists.fits, hnext h.lists.next, h.lists.lines⟩, ?_, fun c hc => h.told c hc⟩
    · exact mem_ids_iff.mp (hids (mem_ids_iff.mpr (hrow.live leaf hleaf)))
    · exact ⟨h.fair.numbers, h.fair.below, h.fair.unheard, h.fair.once, h.fair.known, h.fair.asked⟩

theorem sound_bind {session : Session} {spawns : List Session} {s : NavService}
    (h : bind session spawns = .ok s) : ∃ first, Sound first s := by
  rw [bind] at h
  have hids : Kernel.new.HasIds :=
    ⟨by simp [Kernel.new], by simp [Kernel.new, Kernel.ids, Table.keys, Table.empty]⟩
  have hkeys := ids_spawnLeaf hids session
  have hnext := next_spawnLeaf Kernel.new session
  rcases hspawn : Kernel.new.spawnLeaf session with ⟨leaf, kernel⟩
  rw [hspawn] at h hkeys hnext
  dsimp only at h hkeys hnext
  have hleaf : (kernel.session leaf).isSome := by
    rw [← mem_ids_iff, hkeys]
    exact List.mem_append_right _ List.mem_cons_self
  obtain ⟨g₀, hworkspace, hkernel₀, hrow₀⟩ :
      ∃ g₀, (createNode 1 .workspace none).exec (Containers.new kernel) = (.ok ⟨1⟩, g₀) ∧
        g₀.kernel = kernel ∧ Row g₀ [] :=
    ⟨_, rfl, rfl, rfl, rfl, .nil, List.forall_mem_nil _⟩
  rw [← hkernel₀] at hleaf
  obtain ⟨g, hmade, hkernel, hrow⟩ := hrow₀.addTab (by simp [Fits]) hleaf List.not_mem_nil 0
  obtain ⟨tab, g₁, hcreate, hattach⟩ := Op.exec_bind_eq_ok.mp hmade
  have hbound : (bindContainers leaf).exec (Containers.new kernel) = (.ok ⟨1⟩, g) := by
    rw [bindContainers, Op.exec_bind_ok hworkspace, Op.exec_bind_ok hcreate, Op.exec_bind_ok hattach]
    rfl
  rw [hbound] at h
  obtain rfl := Except.ok.inj h
  refine ⟨leaf, ⟨rfl, hrow, by simp [leaves, Fits], ?_, fun i r hr => ?_⟩, ?_, List.forall_mem_nil _⟩
  · rw [hkernel, hkernel₀]
    exact hnext
  · simp at hr
  · exact ⟨.nil, List.forall_mem_nil _, List.forall_mem_nil _, .nil, List.forall_mem_nil _,
      List.forall_mem_nil _⟩

/-- Whoever connects when and whatever else the daemon does with its leaves: the containers are
the workspace with a tab for the first leaf and one for each connection that asked, all with
leaves of their own, and each answer lists the tabs that there were by then, its own last. What
was sent to a connection is the tabs there were at one time, with its answer behind, all of both
where its socket took all. -/
theorem tabs_answered {session : Session} {spawns : List Session} {s₀ s : NavService}
    (hbind : bind session spawns = .ok s₀) (hrun : Runs Takes HasRoom s₀ s) :
    ∃ first, Row s.containers (first :: s.replies.map NewTab.leaf) ∧
      (∀ i r, s.replies[i]? = some r →
        r.line = tabLine (first :: (s.replies.take (i + 1)).map NewTab.leaf)) ∧
      (s.replies.map NewTab.number).Nodup ∧
      (∀ c ∈ s.closed, c.number ∈ s.replies.map NewTab.number ↔ asksNewTab c.heard = true) ∧
      ∀ c ∈ s.conns ++ s.closed, Told first s c := by
  obtain ⟨first, hstart⟩ := sound_bind hbind
  have hsound : Sound first s :=
    hrun.invariant (I := Sound first) (fun _ _ _ h hroom htakes => h.takes hroom htakes) hstart
  exact ⟨first, hsound.lists.row, hsound.lists.lines, hsound.fair.once, hsound.fair.asked, hsound.told⟩

/-- A connection that sends `NEW_TAB` gets the second tab. -/
theorem second_tab_answered : ∃ s : NavService, s.replies.length = 1 ∧ s.closed.length = 1 ∧
    ∃ first, Row s.containers (first :: s.replies.map NewTab.leaf) ∧
      (∀ i r, s.replies[i]? = some r →
        r.line = tabLine (first :: (s.replies.take (i + 1)).map NewTab.leaf)) ∧
      (s.replies.map NewTab.number).Nodup ∧
      (∀ c ∈ s.closed, c.number ∈ s.replies.map NewTab.number ↔ asksNewTab c.heard = true) ∧
      ∀ c ∈ s.conns ++ s.closed, Told first s c := by
  let session : Session := .spawn (.spawn ⟨80, 24, 0, 0⟩ []) false ⟨80, 24, 0, 0⟩
  let reads : List Read := [.data [78, 69, 87, 95, 84, 65, 66, 10]]
  obtain ⟨s₀, hbind, hroom, hrun, hreplies, hclosed⟩ : ∃ s₀, bind session [session] = .ok s₀ ∧
      HasRoom (s₀.accept reads []) .poll ∧ ((poll 1).exec (s₀.accept reads [])).1 = .ok () ∧
      ((poll 1).exec (s₀.accept reads [])).2.replies.length = 1 ∧
      ((poll 1).exec (s₀.accept reads [])).2.closed.length = 1 :=
    ⟨_, rfl, ⟨by decide, by decide⟩, by decide +kernel, by decide +kernel, by decide +kernel⟩
  have hpoll : Takes (s₀.accept reads []) .poll ((poll 1).exec (s₀.accept reads [])).2 :=
    .poll 0 (Prod.ext hrun rfl)
  exact ⟨_, hreplies, hclosed, tabs_answered hbind
    (.tail (.tail .refl ⟨.accept reads [], trivial, .accept _ _⟩) ⟨.poll, hroom, hpoll⟩)⟩

end NavService

end Rill.Daemon
