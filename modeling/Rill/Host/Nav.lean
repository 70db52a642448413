import Rill.Daemon.Nav
import Rill.Lib.Text
import Rill.Orchestrate.Trust

/-!
# The sidebar's tab list

The host takes its list of tabs from one read of the navigation socket. It has the whole
list when everything up to the last leaf came with that read.
-/

namespace Rill.Host

open Lib Kernel Containers Orchestrate

structure NavSnapshot where
  workspaceId : UInt64
  tabs : List UInt64
  leaves : List UInt64
  deriving DecidableEq, Repr

inductive NavError
  | dead
  | invalidHostIdentity
  deriving DecidableEq, Repr

def parseIdList (s : List Char) : List UInt64 :=
  if s.isEmpty then [] else (s.splitOn ',').filterMap decimal64.read

/-- What the parts of the line read so far have set. -/
structure NavParts where
  workspaceId : Option UInt64
  tabs : List UInt64
  leaves : List UInt64

def NavParts.read (parts : NavParts) (part : List Char) : NavParts :=
  let parts := (part.dropPrefix? ['w', 's', '=']).elim parts fun v =>
    { parts with workspaceId := decimal64.read v }
  let parts := (part.dropPrefix? ['t', 'a', 'b', 's', '=']).elim parts fun v =>
    { parts with tabs := parseIdList v }
  (part.dropPrefix? ['l', 'e', 'a', 'v', 'e', 's', '=']).elim parts fun v =>
    { parts with leaves := parseIdList v }

def parseNavLine (line : List Char) : Option NavSnapshot :=
  let parts := (fields isWhitespace (trim line)).foldl NavParts.read ⟨none, [], []⟩
  parts.workspaceId.map fun id => ⟨id, parts.tabs, parts.leaves⟩

/-- One read, into 512 bytes, of a stream that delivers these pieces. -/
def readLine (pieces : List (List UInt8)) : Except NavError (List Char) :=
  let buf := (pieces.headD []).take 512
  if buf.length = 0 then throw .dead else pure (fromUtf8Lossy buf)

def navSnapshot (pieces : List (List UInt8)) : Except NavError NavSnapshot := do
  let line ← readLine pieces
  match parseNavLine line with
  | some s => pure s
  | none => throw .invalidHostIdentity

-- ---------------------------------------------------------------------------
-- What the host is to see
-- ---------------------------------------------------------------------------

/-- The list has the workspace, its tabs in order and the first leaf of each. -/
structure ShowsTabs (workspaceId : NodeId) (g : Containers) (s : NavSnapshot) : Prop where
  workspaceId : s.workspaceId = workspaceId.raw
  tabs_sorted : s.tabs.Pairwise (· < ·)
  mem_tabs : ∀ id, id ∈ s.tabs ↔ ∃ n, g.node? ⟨id⟩ = some n ∧ n.kind = .tab
  leaves : s.leaves = s.tabs.map fun id => g.firstLeafOf ⟨id⟩
  length : s.tabs.length = s.leaves.length

theorem showsTabs_iff (workspaceId : NodeId) (g : Containers) (s : NavSnapshot) :
    ShowsTabs workspaceId g s ↔ s = ⟨workspaceId.raw, g.tabIds, g.leafIds⟩ := by
  constructor
  · intro h
    have hnodup : ∀ {l : List UInt64}, l.Pairwise (· < ·) → l.Nodup := fun hl => hl.imp UInt64.ne_of_lt
    have hperm : s.tabs.Perm g.tabIds :=
      (List.perm_ext_iff_of_nodup (hnodup h.tabs_sorted) (hnodup g.pairwise_tabIds)).mpr
        fun id => (h.mem_tabs id).trans mem_tabIds.symm
    have htabs : s.tabs = g.tabIds :=
      hperm.eq_of_pairwise (fun a b _ _ hab hba => absurd hba (UInt64.lt_asymm hab))
        h.tabs_sorted g.pairwise_tabIds
    have hleaves : s.leaves = g.leafIds := by rw [h.leaves, htabs, leafIds_eq]
    rw [← h.workspaceId, ← htabs, ← hleaves]
  · rintro rfl
    exact ⟨rfl, g.pairwise_tabIds, fun _ => mem_tabIds, leafIds_eq g, by simp [tabIds, leafIds]⟩

def digits (id : UInt64) : Nat := (decimal64.write id).length

/-- The bytes of the line up to the last leaf; without tabs, up to the workspace. -/
def navBytes (workspaceId : NodeId) (g : Containers) : Nat :=
  if g.tabRows.isEmpty then 3 + digits workspaceId.raw
  else 15 + digits workspaceId.raw + (g.tabRows.map fun row => digits row.id.raw + digits row.firstLeaf + 2).sum

-- ---------------------------------------------------------------------------
-- Reading the start of the line
-- ---------------------------------------------------------------------------

theorem fields_trim (line : List Char) : fields isWhitespace (trim line) = fields isWhitespace line := by
  rw [trim, fields_rdropWhile, fields_dropWhile]

namespace NavParts

theorem foldl_read_nonempty (parts : NavParts) (part : List Char) :
    ([part].filter fun w => !w.isEmpty).foldl read parts = parts.read part := by
  cases part with
  | nil => rfl
  | cons c part => rfl

theorem read_workspaceField (parts : NavParts) (workspaceId : NodeId) (k : Nat) :
    parts.read ((workspaceField workspaceId).take k) =
      if 3 ≤ k then { parts with workspaceId := decimal64.read ((decimal64.write workspaceId.raw).take (k - 3)) }
      else parts := by
  have hkey := dropPrefix?_take_append ['w', 's', '='] (decimal64.write workspaceId.raw) k
  have htabs : ((workspaceField workspaceId).take k).dropPrefix? ['t', 'a', 'b', 's', '='] = none :=
    dropPrefix?_eq_none (by decide) _ _ k
  have hleaves : ((workspaceField workspaceId).take k).dropPrefix? ['l', 'e', 'a', 'v', 'e', 's', '='] = none :=
    dropPrefix?_eq_none (by decide) _ _ k
  simp only [read, htabs, hleaves, Option.elim_none]
  rw [workspaceField, hkey]
  simp only [List.length_cons, List.length_nil, Nat.zero_add]
  split <;> rfl

theorem read_tabsField (parts : NavParts) (g : Containers) (k : Nat) :
    parts.read (g.tabsField.take k) =
      if 5 ≤ k then { parts with tabs := decimal64.readAll ',' ((decimal64.writeAll ',' g.tabIds).take (k - 5)) }
      else parts := by
  have hkey := dropPrefix?_take_append ['t', 'a', 'b', 's', '='] (decimal64.writeAll ',' g.tabIds) k
  have hws : (g.tabsField.take k).dropPrefix? ['w', 's', '='] = none :=
    dropPrefix?_eq_none (by decide) _ _ k
  have hleaves : (g.tabsField.take k).dropPrefix? ['l', 'e', 'a', 'v', 'e', 's', '='] = none :=
    dropPrefix?_eq_none (by decide) _ _ k
  simp only [read, hws, hleaves, Option.elim_none]
  rw [tabsField, hkey]
  simp only [List.length_cons, List.length_nil, Nat.zero_add]
  split <;> rfl

theorem read_leavesField (parts : NavParts) (g : Containers) (k : Nat) :
    parts.read (g.leavesField.take k) =
      if 7 ≤ k then { parts with leaves := decimal64.readAll ',' ((decimal64.writeAll ',' g.leafIds).take (k - 7)) }
      else parts := by
  have hkey := dropPrefix?_take_append ['l', 'e', 'a', 'v', 'e', 's', '='] (decimal64.writeAll ',' g.leafIds) k
  have hws : (g.leavesField.take k).dropPrefix? ['w', 's', '='] = none :=
    dropPrefix?_eq_none (by decide) _ _ k
  have htabs : (g.leavesField.take k).dropPrefix? ['t', 'a', 'b', 's', '='] = none :=
    dropPrefix?_eq_none (by decide) _ _ k
  simp only [read, hws, htabs, Option.elim_none]
  rw [leavesField, hkey]
  simp only [List.length_cons, List.length_nil, Nat.zero_add]
  split <;> rfl

end NavParts

theorem not_isWhitespace_of_isDigit {c : Char} (h : c.isDigit = true) : isWhitespace c = false := by
  obtain ⟨hlo, hhi⟩ := Char.isDigit_iff_toNat.mp h
  simp only [isWhitespace]
  grind

theorem solid_workspaceField (workspaceId : NodeId) :
    ∀ c ∈ workspaceField workspaceId, isWhitespace c = false := by
  intro c hc
  rcases List.mem_append.mp hc with hc | hc
  · exact (isSolid_iff ['w', 's', '=']).mp rfl c hc
  · exact not_isWhitespace_of_isDigit (isDigit_of_mem_decimal64 hc)

theorem solid_writeAll (ids : List UInt64) : ∀ c ∈ decimal64.writeAll ',' ids, isWhitespace c = false := by
  intro c hc
  rcases isAsciiDigitOrComma hc with rfl | hc
  · rfl
  · exact not_isWhitespace_of_isDigit hc

theorem solid_tabsField (g : Containers) : ∀ c ∈ g.tabsField, isWhitespace c = false := by
  intro c hc
  rcases List.mem_append.mp hc with hc | hc
  · exact (isSolid_iff ['t', 'a', 'b', 's', '=']).mp rfl c hc
  · exact solid_writeAll g.tabIds c hc

theorem solid_leavesField (g : Containers) : ∀ c ∈ g.leavesField, isWhitespace c = false := by
  intro c hc
  rcases List.mem_append.mp hc with hc | hc
  · exact (isSolid_iff ['l', 'e', 'a', 'v', 'e', 's', '=']).mp rfl c hc
  · exact solid_writeAll g.leafIds c hc

/-- What the host has of the line when it is cut: of each field what is in front of the cut. -/
theorem parts_take (workspaceId : NodeId) (g : Containers) (k : Nat) :
    let tabs := k - ((workspaceField workspaceId).length + 1)
    let leaves := tabs - (g.tabsField.length + 1)
    (fields isWhitespace (trim ((navSnapshotLine workspaceId g).toList.take k))).foldl NavParts.read
        ⟨none, [], []⟩ =
      ⟨if 3 ≤ k then decimal64.read ((decimal64.write workspaceId.raw).take (k - 3)) else none,
        if 5 ≤ tabs then decimal64.readAll ',' ((decimal64.writeAll ',' g.tabIds).take (tabs - 5)) else [],
        if 7 ≤ leaves then decimal64.readAll ',' ((decimal64.writeAll ',' g.leafIds).take (leaves - 7))
          else []⟩ := by
  intro tabs leaves
  rw [fields_trim, toList_navSnapshotLine, fields_take_solid_cons (solid_workspaceField workspaceId) rfl,
    fields_take_solid_cons (solid_tabsField g) rfl, fields_take_solid_cons (solid_leavesField g) rfl]
  simp only [List.take_nil, fields_nil, List.append_nil, List.foldl_append, NavParts.foldl_read_nonempty,
    NavParts.read_workspaceField, NavParts.read_tabsField, NavParts.read_leavesField]
  split <;> split <;> split <;> rfl

theorem readAll_key_take_iff (ids : List UInt64) (key k : Nat) :
    (if key ≤ k then decimal64.readAll ',' ((decimal64.writeAll ',' ids).take (k - key)) else []) = ids ↔
      ids = [] ∨ key + (decimal64.writeAll ',' ids).length ≤ k := by
  have hcomma : ∀ v, ',' ∉ decimal64.write v := fun v hc =>
    absurd (isDigit_of_mem_decimal64 hc) (by decide)
  cases ids with
  | nil => simp
  | cons id ids =>
    split
    case isTrue hk =>
      rw [decimal64.readAll_take_iff ',' hcomma]
      simp only [reduceCtorEq, false_or]
      omega
    case isFalse hk =>
      simp only [reduceCtorEq, false_or, false_iff]
      omega

theorem length_writeAll_map {rows : List ContainerSnapshot} (h : rows ≠ []) (id : ContainerSnapshot → UInt64) :
    (decimal64.writeAll ',' (rows.map id)).length + 1 = (rows.map fun row => digits (id row) + 1).sum := by
  cases rows with
  | nil => exact absurd rfl h
  | cons row rows =>
    rw [List.map_cons, decimal64.length_writeAll_cons, ← List.map_cons, List.map_map]
    rfl

theorem navBytes_eq (workspaceId : NodeId) (g : Containers) :
    navBytes workspaceId g =
      if g.tabRows.isEmpty then (workspaceField workspaceId).length
      else (workspaceField workspaceId).length + 1 + g.tabsField.length + 1 + g.leavesField.length := by
  have hws : (workspaceField workspaceId).length = 3 + digits workspaceId.raw := by
    rw [workspaceField, List.length_append]
    rfl
  rw [navBytes, hws]
  split
  case isTrue => rfl
  case isFalse hrows =>
    have hne : g.tabRows ≠ [] := fun hnil => hrows (by rw [hnil]; rfl)
    have htabs : g.tabsField.length = 5 + (decimal64.writeAll ',' g.tabIds).length := List.length_append
    have hleaves : g.leavesField.length = 7 + (decimal64.writeAll ',' g.leafIds).length :=
      List.length_append
    have htab := length_writeAll_map hne fun row => row.id.raw
    have hleaf := length_writeAll_map hne ContainerSnapshot.firstLeaf
    have hsum : (g.tabRows.map fun row => digits row.id.raw + digits row.firstLeaf + 2).sum =
        (g.tabRows.map fun row => digits row.id.raw + 1).sum +
          (g.tabRows.map fun row => digits row.firstLeaf + 1).sum := by
      rw [← List.sum_map_add]
      congr 1
      exact List.map_congr_left fun row _ => by omega
    rw [hsum, htabs, hleaves, tabIds, leafIds]
    omega

/-- What the start of the line says is what the tree has, when nothing of it is missing. -/
theorem parseNavLine_take_iff (workspaceId : NodeId) (g : Containers) (k : Nat) :
    (∃ s, parseNavLine ((navSnapshotLine workspaceId g).toList.take k) = some s ∧ ShowsTabs workspaceId g s) ↔
      navBytes workspaceId g ≤ k := by
  have hws : (workspaceField workspaceId).length = 3 + (decimal64.write workspaceId.raw).length :=
    List.length_append
  have htabs : g.tabsField.length = 5 + (decimal64.writeAll ',' g.tabIds).length := List.length_append
  have hleaves : g.leavesField.length = 7 + (decimal64.writeAll ',' g.leafIds).length :=
    List.length_append
  have hpos := List.length_pos_iff.mpr (decimal64.write_ne_nil workspaceId.raw)
  have hwsRead : (if 3 ≤ k then decimal64.read ((decimal64.write workspaceId.raw).take (k - 3)) else none) =
      some workspaceId.raw ↔ (workspaceField workspaceId).length ≤ k := by
    split
    case isTrue hk =>
      rw [decimal64.read_take_iff]
      omega
    case isFalse hk =>
      simp only [reduceCtorEq, false_iff]
      omega
  have htabsRead := readAll_key_take_iff g.tabIds 5 (k - ((workspaceField workspaceId).length + 1))
  have hleavesRead := readAll_key_take_iff g.leafIds 7
    (k - ((workspaceField workspaceId).length + 1) - (g.tabsField.length + 1))
  have hread : (∃ s, parseNavLine ((navSnapshotLine workspaceId g).toList.take k) = some s ∧
      ShowsTabs workspaceId g s) ↔ (workspaceField workspaceId).length ≤ k ∧
        (g.tabIds = [] ∨ g.tabsField.length ≤ k - ((workspaceField workspaceId).length + 1)) ∧
        (g.leafIds = [] ∨ g.leavesField.length ≤
          k - ((workspaceField workspaceId).length + 1) - (g.tabsField.length + 1)) := by
    rw [← hwsRead, htabs, ← htabsRead, ← htabs, hleaves, ← hleavesRead]
    simp only [parseNavLine, parts_take, showsTabs_iff, Option.map_eq_some_iff]
    constructor
    · rintro ⟨s, ⟨id, hid, rfl⟩, heq⟩
      obtain ⟨rfl, htabs, hleaves⟩ := NavSnapshot.mk.inj heq
      exact ⟨hid, htabs, hleaves⟩
    · rintro ⟨hid, htabs, hleaves⟩
      exact ⟨_, ⟨_, hid, rfl⟩, by rw [htabs, hleaves]⟩
  rw [hread, navBytes_eq]
  cases hrows : g.tabRows with
  | nil => simp [tabIds, leafIds, hrows]
  | cons row rows =>
    simp only [tabIds, leafIds, hrows, List.map_cons, reduceCtorEq, false_or, List.isEmpty_cons,
      Bool.false_eq_true, if_false]
    omega

-- ---------------------------------------------------------------------------
-- From the stream
-- ---------------------------------------------------------------------------

theorem isAscii_navSnapshotLine (workspaceId : NodeId) (g : Containers) :
    isAscii (navSnapshotLine workspaceId g).toList = true := by
  have hdigit : ∀ c : Char, c.isDigit = true → c.toNat < 128 := fun c hc =>
    Nat.lt_of_le_of_lt (Char.isDigit_iff_toNat.mp hc).2 (by decide)
  have hlist : ∀ ids c, c ∈ decimal64.writeAll ',' ids → c.toNat < 128 := by
    intro ids c hc
    rcases isAsciiDigitOrComma hc with rfl | hc
    · decide
    · exact hdigit c hc
  simp only [isAscii, List.all_eq_true, decide_eq_true_eq, toList_navSnapshotLine, workspaceField, tabsField,
    leavesField, List.mem_append, List.mem_cons, List.not_mem_nil, or_false]
  rintro c ((hc | hc) | rfl | (hc | hc) | rfl | (hc | hc) | rfl)
  · rcases hc with rfl | rfl | rfl <;> decide
  · exact hdigit c (isDigit_of_mem_decimal64 hc)
  · decide
  · rcases hc with rfl | rfl | rfl | rfl | rfl <;> decide
  · exact hlist _ c hc
  · decide
  · rcases hc with rfl | rfl | rfl | rfl | rfl | rfl | rfl <;> decide
  · exact hlist _ c hc
  · decide

theorem readLine_eq {line : String} (hascii : isAscii line.toList = true) {pieces : List (List UInt8)}
    (h : pieces.flatten = asBytes line) :
    readLine pieces =
      if (pieces.headD []).length = 0 then .error .dead
      else .ok (line.toList.take (min 512 (pieces.headD []).length)) := by
  have hhead : pieces.headD [] = (asBytes line).take (pieces.headD []).length := by
    rw [← h]
    cases pieces <;> simp
  have hbuf : (pieces.headD []).take 512 = (asBytes line).take (min 512 (pieces.headD []).length) := by
    conv_lhs => rw [hhead, List.take_take]
  have htext := fromUtf8Lossy_take_asBytes hascii (min 512 (pieces.headD []).length)
  rw [String.ofList_toList] at htext
  have hempty : ((pieces.headD []).take 512).length = 0 ↔ (pieces.headD []).length = 0 := by
    rw [List.length_take]
    omega
  simp only [readLine, hempty]
  rw [hbuf, htext]
  rfl

theorem three_le_navBytes (workspaceId : NodeId) (g : Containers) : 3 ≤ navBytes workspaceId g := by
  rw [navBytes]
  split <;> omega

theorem navSnapshot_of_readLine {pieces : List (List UInt8)} {line : List Char} {s : NavSnapshot}
    (h : readLine pieces = .ok line) : navSnapshot pieces = .ok s ↔ parseNavLine line = some s := by
  rw [navSnapshot, h]
  cases hs : parseNavLine line with
  | none => simp [bind, Except.bind, hs, throw, throwThe, MonadExceptOf.throw]
  | some s' => simp [bind, Except.bind, pure, Except.pure, hs]

theorem navSnapshot_shows (workspaceId : NodeId) (g : Containers) {pieces : List (List UInt8)}
    (h : pieces.flatten = asBytes (navSnapshotLine workspaceId g)) :
    (∃ s, navSnapshot pieces = .ok s ∧ ShowsTabs workspaceId g s) ↔
      navBytes workspaceId g ≤ min 512 (pieces.headD []).length := by
  have hline := readLine_eq (isAscii_navSnapshotLine workspaceId g) h
  by_cases hzero : (pieces.headD []).length = 0
  · have hthree := three_le_navBytes workspaceId g
    have hdead : navSnapshot pieces = .error .dead := by rw [navSnapshot, hline, if_pos hzero]; rfl
    constructor
    · rintro ⟨s, hs, -⟩
      rw [hdead] at hs
      cases hs
    · intro hle
      omega
  · rw [if_neg hzero] at hline
    simp only [← parseNavLine_take_iff, navSnapshot_of_readLine hline]

/-- The host sees the whole list when the first piece has it and it is within 512 bytes: a cut
drops what is behind it and makes another id of the digits in front of it. -/
theorem sees_tabs_iff (workspaceId : NodeId) (g : Containers) (pieces : List (List UInt8))
    (h : pieces.flatten = asBytes (navSnapshotLine workspaceId g)) :
    (∃ s, navSnapshot pieces = .ok s ∧ ShowsTabs workspaceId g s) ↔
      navBytes workspaceId g ≤ 512 ∧ navBytes workspaceId g ≤ (pieces.headD []).length := by
  rw [navSnapshot_shows workspaceId g h, Nat.le_min]

/-- The line of one tab, in two pieces of which the first has the list. -/
theorem sees_tabs_iff_one :
    navSnapshotLine ⟨1⟩ workspaceWithTab = "ws=1 tabs=2 leaves=0\n" ∧
      ∃ s, navSnapshot [asBytes "ws=1 tabs=2 leaves=0", [0x0a]] = .ok s ∧ ShowsTabs ⟨1⟩ workspaceWithTab s := by
  have hkept := containerSnapshot_of_pairwise (g := workspaceWithTab) (by decide)
  have hline : navSnapshotLine ⟨1⟩ workspaceWithTab = "ws=1 tabs=2 leaves=0\n" := by
    rw [navSnapshotLine, tabIds, leafIds, tabRows, hkept]
    decide +kernel
  have hbytes : navBytes ⟨1⟩ workspaceWithTab = 20 := by
    rw [navBytes, tabRows, hkept]
    decide +kernel
  refine ⟨hline, (sees_tabs_iff ⟨1⟩ workspaceWithTab _ ?_).mpr ?_⟩
  · rw [hline]
    decide +kernel
  · rw [hbytes]
    decide +kernel

/-- A workspace with ninety tabs, each with a leaf. -/
def ninetyNodes : List (NodeId × ContainerNode) :=
  (⟨1⟩, ⟨.workspace, none, (List.range 90).map fun i => .node ⟨UInt64.ofNat (i + 2)⟩⟩) ::
    (List.range 90).map fun i =>
      (⟨UInt64.ofNat (i + 2)⟩, ⟨.tab, some ⟨1⟩, [.leaf ⟨UInt64.ofNat (i + 1)⟩]⟩)

theorem pairwise_ninetyNodes : (ninetyNodes.map Prod.fst).Pairwise fun a b => a.raw < b.raw := by
  have hid : ∀ i ∈ List.range 90, (UInt64.ofNat (i + 2)).toNat = i + 2 := fun i hi =>
    UInt64.toNat_ofNat_of_lt' (Nat.lt_trans (Nat.add_lt_add_right (List.mem_range.mp hi) 2) (by decide))
  rw [ninetyNodes, List.map_cons, List.map_map, List.pairwise_cons]
  constructor
  · intro id hmem
    obtain ⟨i, hi, rfl⟩ := List.mem_map.mp hmem
    have hone : (1 : UInt64).toNat = 1 := rfl
    rw [UInt64.lt_iff_toNat_lt, Function.comp_apply, hid i hi, hone]
    omega
  · rw [List.pairwise_map]
    refine List.pairwise_lt_range.imp_of_mem fun {i j} hi hj hij => ?_
    rw [UInt64.lt_iff_toNat_lt, Function.comp_apply, Function.comp_apply, hid i hi, hid j hj]
    omega

def ninetyTabs : Containers where
  kernel := .new
  nodes :=
    { entries := ninetyNodes
      nodup := pairwise_ninetyNodes.imp fun hlt heq => UInt64.ne_of_lt hlt (congrArg NodeId.raw heq) }
  nextNode := 92

/-- The stream delivers the whole line at once, and the host does not see all ninety tabs. -/
theorem ninety_tabs_cut :
    ¬ ∃ s, navSnapshot [asBytes (navSnapshotLine ⟨1⟩ ninetyTabs)] = .ok s ∧ ShowsTabs ⟨1⟩ ninetyTabs s := by
  have hrows : 512 < navBytes ⟨1⟩ ninetyTabs := by
    have hkept := containerSnapshot_of_pairwise (g := ninetyTabs) pairwise_ninetyNodes
    rw [navBytes, tabRows, hkept]
    decide +kernel
  rw [navSnapshot_shows ⟨1⟩ ninetyTabs (by simp)]
  omega

end Rill.Host
