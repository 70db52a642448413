import Rill.Vt.Escapes
import Rill.Vt.Typeset

/-!
# The columns of a cluster

What joins a cluster writes no cell and moves no cursor. The first scalar has already
taken the columns, and past the length limit the others are only counted.
-/

namespace Rill.Vt

/-- The scalars that the parser hands on to be printed. -/
def Prints (c : Char) : Prop := 0x20 ≤ c.val.toNat ∧ c.val.toNat ≠ 0x7f

/-- Each scalar continues the cluster or follows a joiner, and none is a regional indicator. -/
def Joining : Bool → List Char → Prop
  | _, [] => True
  | afterZwj, c :: rest =>
    isRegionalIndicator c = false ∧ (isClusterContinuer c = true ∨ afterZwj = true) ∧
      Joining (c = zeroWidthJoiner) rest

theorem zeroWidthJoiner_continues : isClusterContinuer zeroWidthJoiner = true := by decide +kernel

namespace Screen

/-- After a wrap, if it needs one, there is room for the glyph. -/
def hasRoom (s : Screen) (c : Char) : Bool :=
  let width := clusterWidth c
  let t := s.wrapIfNeededWidth width
  !(t.cols < width || t.remainingCols < width)

/-- What a cluster shows: its cells, and the cursor after it. -/
structure SameGlyph (s t : Screen) : Prop where
  cells : t.cells = s.cells
  cursorCol : t.cursorCol = s.cursorCol
  cursorRow : t.cursorRow = s.cursorRow
  pendingWrap : t.pendingWrap = s.pendingWrap

theorem SameGlyph.trans {s t u : Screen} (h : SameGlyph s t) (k : SameGlyph t u) : SameGlyph s u where
  cells := k.cells.trans h.cells
  cursorCol := k.cursorCol.trans h.cursorCol
  cursorRow := k.cursorRow.trans h.cursorRow
  pendingWrap := k.pendingWrap.trans h.pendingWrap

variable {s : Screen} {cl : OpenCluster} {c : Char}

/-- The count of truncated scalars, `k` scalars into a cluster that began with the count at `n`. -/
def Counted (s : Screen) (cl : OpenCluster) (n k : Nat) : Prop :=
  cl.len.toNat = min (k + 1) 32 ∧ s.graphemeTruncated.toNat = min (n + (k - 31)) (2 ^ 32 - 1)

theorem len_lt {n : UInt8} (h : ¬ n ≥ rillGraphemeMax) : (n + 1).toNat = n.toNat + 1 ∧ n.toNat < 32 := by
  have hlt : n.toNat < 32 := UInt8.lt_iff_toNat_lt.mp (UInt8.not_le.mp h)
  refine ⟨?_, hlt⟩
  rw [UInt8.toNat_add]
  exact Nat.mod_eq_of_lt (by change n.toNat + 1 < 256; omega)

/-- A scalar that joins the open cluster is in its length or in the count. -/
theorem print_joining (hcl : s.openCluster = some cl) (hri : isRegionalIndicator c = false)
    (hjoin : isClusterContinuer c = true ∨ cl.afterZwj = true) {n k : Nat} (hcount : Counted s cl n k) :
    ∃ cl', (s.print c).openCluster = some cl' ∧ cl'.afterZwj = decide (c = zeroWidthJoiner) ∧
      SameGlyph s (s.print c) ∧ Counted (s.print c) cl' n (k + 1) := by
  obtain ⟨hlen, htruncated⟩ := hcount
  have happend : s.shouldAppend c = true := by
    rw [shouldAppend, hcl]
    rcases hjoin with hjoin | hjoin <;> simp [hjoin]
  rw [Screen.print, writeChar, if_pos happend, appendToCluster, hcl, Option.map_some]
  dsimp only
  rw [if_neg (by simp [hri])]
  obtain ⟨damageRow0, damageRow1, hdirty⟩ := Typing.dirty_eq (s.countTruncated cl.len) cl.row
  rw [hdirty]
  refine ⟨_, rfl, rfl, ?_, ?_⟩
  · unfold countTruncated
    split <;> exact ⟨rfl, rfl, rfl, rfl⟩
  · unfold countTruncated
    by_cases hmax : cl.len ≥ rillGraphemeMax
    · have hge : 32 ≤ cl.len.toNat := UInt8.le_iff_toNat_le.mp hmax
      refine ⟨?_, ?_⟩
      · change (if cl.len ≥ rillGraphemeMax then cl.len else cl.len + 1).toNat = _
        rw [if_pos hmax]
        omega
      · change (if cl.len ≥ rillGraphemeMax then { s with graphemeTruncated := satAdd32 s.graphemeTruncated 1 }
          else s).graphemeTruncated.toNat = _
        rw [if_pos hmax]
        change (satAdd32 s.graphemeTruncated 1).toNat = _
        rw [toNat_satAdd32_one, htruncated]
        omega
    · obtain ⟨hsucc, hlt⟩ := len_lt hmax
      refine ⟨?_, ?_⟩
      · change (if cl.len ≥ rillGraphemeMax then cl.len else cl.len + 1).toNat = _
        rw [if_neg hmax, hsucc]
        omega
      · change (if cl.len ≥ rillGraphemeMax then { s with graphemeTruncated := satAdd32 s.graphemeTruncated 1 }
          else s).graphemeTruncated.toNat = _
        rw [if_neg hmax, htruncated]
        omega

theorem prints_joining (hcl : s.openCluster = some cl) {rest : List Char}
    (hjoin : Joining cl.afterZwj rest) {n k : Nat} (hcount : Counted s cl n k) :
    SameGlyph s (rest.foldl Screen.print s) ∧
      (rest.foldl Screen.print s).graphemeTruncated.toNat =
        min (n + (k + rest.length - 31)) (2 ^ 32 - 1) := by
  induction rest generalizing s cl k with
  | nil => exact ⟨⟨rfl, rfl, rfl, rfl⟩, hcount.2⟩
  | cons c rest ih =>
    obtain ⟨hri, hthis, hrest⟩ := hjoin
    obtain ⟨cl', hcl', hzwj, hsame, hcount⟩ := print_joining hcl hri hthis hcount
    obtain ⟨hrun, htruncated⟩ := ih hcl' (hzwj ▸ hrest) hcount
    refine ⟨hsame.trans hrun, ?_⟩
    rw [List.foldl_cons, htruncated, List.length_cons, Nat.add_right_comm, Nat.add_assoc]

theorem print_base (hcont : isClusterContinuer c = false) (hri : isRegionalIndicator c = false)
    (halone : ∀ cl, s.openCluster = some cl → cl.afterZwj = false) (hroom : s.hasRoom c = true) :
    ∃ cl, (s.print c).openCluster = some cl ∧ cl.len = 1 ∧ cl.afterZwj = false := by
  have happend : s.shouldAppend c = false := by
    unfold shouldAppend
    cases hcl : s.openCluster with
    | none => rfl
    | some cl => simp [hcont, hri, halone cl hcl]
  have hzwj : ¬ c = zeroWidthJoiner := by
    rintro rfl
    exact Bool.false_ne_true (hcont.symm.trans zeroWidthJoiner_continues)
  rw [Screen.print, writeChar, happend, if_neg Bool.false_ne_true]
  dsimp only
  unfold printBase
  dsimp only
  rw [if_neg (by simpa [hasRoom] using hroom)]
  unfold placeGlyph
  dsimp only
  obtain ⟨col, pending, hadvance⟩ := Typing.advance_eq (dirty _ _) (clusterWidth c)
  obtain ⟨damageRow0, damageRow1, hdirty⟩ := Typing.dirty_eq (setOpenCluster _ _) _
  rw [hadvance, hdirty]
  exact ⟨_, rfl, rfl, decide_eq_false hzwj⟩

end Screen

namespace VtEngine

theorem feed_text {text : List Char} (h : Hosted e) (hidle : e.parser.isIdle)
    (hprints : ∀ c ∈ text, Prints c) :
    (e.feed (text.flatMap String.utf8EncodeChar)).screen = text.foldl Screen.print e.screen := by
  have hacts := (Parser.feed_of_makes (Parser.makes_text hprints) h.fed hidle).1
  rw [feed]
  dsimp only
  rw [hacts, List.foldl_map]
  rfl

/-- A cluster takes the columns of its first scalar, whatever joins it and however the bytes are
cut; the scalars past the thirty-second are counted. -/
theorem cluster_columns (h : Hosted e) (hidle : e.parser.isIdle) (base : Char) (rest : List Char)
    (hprints : ∀ c ∈ base :: rest, Prints c) (hcont : isClusterContinuer base = false)
    (hri : isRegionalIndicator base = false)
    (halone : ∀ cl, e.screen.openCluster = some cl → cl.afterZwj = false)
    (hroom : e.screen.hasRoom base = true) (hjoin : Joining false rest) (chunks : List (List UInt8))
    (hchunks : chunks.flatten = (base :: rest).flatMap String.utf8EncodeChar) :
    let alone := (e.feed (String.utf8EncodeChar base)).screen
    let whole := (e.feedAll chunks).screen
    alone.SameGlyph whole ∧ whole.graphemeTruncated.toNat =
      min (alone.graphemeTruncated.toNat + (rest.length - 31)) (2 ^ 32 - 1) := by
  intro alone whole
  have halone' : alone = e.screen.print base := by
    have hprint : ∀ c ∈ [base], Prints c :=
      List.forall_mem_singleton.mpr (hprints base List.mem_cons_self)
    have hbase := feed_text h hidle hprint
    rwa [List.flatMap_singleton] at hbase
  have hwhole : whole = rest.foldl Screen.print alone := by
    rw [halone', ← List.foldl_cons, ← feed_text h hidle hprints, ← hchunks,
      ← feedAll_eq h.fed.putback]
  obtain ⟨cl, hcl, hlen, hzwj⟩ := Screen.print_base hcont hri halone hroom
  rw [← halone'] at hcl
  have htruncated := alone.graphemeTruncated.toNat_lt
  have hrun := Screen.prints_joining hcl (hzwj.symm ▸ hjoin) (n := alone.graphemeTruncated.toNat)
    (k := 0) ⟨hlen ▸ rfl, by omega⟩
  rwa [← hwhole, Nat.zero_add] at hrun

/-- A letter with an accent, cut inside the accent. -/
theorem cluster_columns_accent :
    let e := (VtEngine.new 4 1).toOption.get rfl
    (e.feed (String.utf8EncodeChar 'e')).screen.SameGlyph (e.feedAll [[0x65, 0xcc], [0x81]]).screen := by
  intro e
  refine (cluster_columns (.new (show VtEngine.new 4 1 = _ from rfl)) rfl 'e' ['\u0301'] ?_
    (by decide +kernel) (by decide) nofun (by decide) ?_ [[0x65, 0xcc], [0x81]] (by decide)).1
  · have hbase : Prints 'e' := by
      unfold Prints
      decide
    have haccent : Prints '\u0301' := by
      unfold Prints
      decide
    exact List.forall_mem_cons.mpr ⟨hbase, List.forall_mem_singleton.mpr haccent⟩
  · exact ⟨by decide, .inl (by decide), trivial⟩

end VtEngine

end Rill.Vt
