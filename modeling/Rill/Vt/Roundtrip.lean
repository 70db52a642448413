import Rill.Vt.Sound

/-!
# Checkpoint round trip

Each writer is undone by its reader, field by field, so importing an exported
checkpoint puts the exported screen in the importer's place. What is not in the
format, a `Host`, is the importer's own.
-/

namespace Rill.Vt

open Lib.Bytes

-- ---------------------------------------------------------------------------
-- Fields
-- ---------------------------------------------------------------------------

theorem reads_u8 (b : UInt8) : Reads takeU8 [b] b := Reads.byte truncated b

theorem reads_u16 (v : UInt16) : Reads takeU16 (putU16 v) v := by
  have h := (Reads.le truncated (k := 2) v.toNat_lt).map UInt16.ofNat
  rwa [UInt16.ofNat_toNat] at h

theorem reads_u32 (v : UInt32) : Reads takeU32 (putU32 v) v := by
  have h := (Reads.le truncated (k := 4) v.toNat_lt).map UInt32.ofNat
  rwa [UInt32.ofNat_toNat] at h

theorem reads_bool (b : Bool) : Reads takeBool (putBool b) b := by
  have h := (reads_u8 (if b then 1 else 0)).map (fun b => decide (b ≠ 0))
  cases b <;> exact h

theorem reads_color (c : Color) : Reads takeColor (putColor c) c := by
  cases c with
  | default => exact (reads_u8 0).bind_last Reads.pure
  | indexed n => exact (reads_u8 1).bind ((reads_u8 n).map Color.indexed)
  | rgb r g b =>
    exact (reads_u8 2).bind ((reads_u8 r).bind ((reads_u8 g).bind ((reads_u8 b).bind Reads.pure)))

theorem reads_rgb (c : Rgb) : Reads takeRgb (putRgb c) c :=
  (reads_u8 c.r).bind ((reads_u8 c.g).bind ((reads_u8 c.b).bind Reads.pure))

theorem reads_palette (p : Palette) : Reads takePalette (putPalette p) p := by
  have hansi : Reads (Take.many takeRgb 16) ((List.ofFn p.ansi).flatMap putRgb)
      (List.ofFn p.ansi) := by
    have h := Reads.many reads_rgb (List.ofFn p.ansi)
    rwa [List.length_ofFn] at h
  have hget : (fun i : Fin 16 => (List.ofFn p.ansi).getD i default) = p.ansi := by
    funext i
    simp only [List.getD_eq_getElem?_getD, List.getElem?_ofFn]
    simp
  unfold putPalette takePalette
  simp only [List.append_assoc]
  refine hansi.bind ((reads_rgb _).bind ((reads_rgb _).bind ((reads_rgb _).bind_last ?_)))
  rw [hget]
  exact Reads.pure

theorem reads_cell (c : Cell) : Reads takeCell (putCell c) c := by
  unfold putCell takeCell
  simp only [List.append_assoc]
  exact (reads_u32 _).bind ((reads_u16 _).bind ((reads_color _).bind
    ((reads_color _).bind_last Reads.pure)))

theorem reads_option {take : Take Error α} {put : α → List UInt8} (badTag : Error)
    (o : Option α) (h : ∀ a, o = some a → Reads take (put a) a) :
    Reads (takeOption badTag take) (putOption put o) o := by
  cases o with
  | none => exact (reads_u8 0).bind_last Reads.pure
  | some a => exact (reads_u8 1).bind ((h a rfl).map some)

theorem reads_savedCursor (c : SavedCursor) : Reads takeSavedCursor (putSavedCursor c) c := by
  unfold putSavedCursor takeSavedCursor
  simp only [List.append_assoc]
  exact (reads_u16 _).bind ((reads_u16 _).bind ((reads_bool _).bind ((reads_color _).bind
    ((reads_color _).bind ((reads_u16 _).bind_last Reads.pure)))))

theorem reads_saved (o : Option SavedCursor) : Reads takeSaved (putSaved o) o :=
  reads_option _ o fun c _ => reads_savedCursor c

theorem reads_cluster (c : OpenCluster) : Reads takeCluster (putCluster c) c := by
  unfold putCluster takeCluster
  simp only [List.append_assoc]
  exact (reads_u16 _).bind ((reads_u16 _).bind ((reads_u8 _).bind ((reads_bool _).bind
    ((reads_bool _).bind ((reads_u8 _).bind Reads.pure)))))

theorem reads_openCluster (o : Option OpenCluster) : Reads takeOpenCluster (putOpenCluster o) o :=
  reads_option _ o fun c _ => reads_cluster c

theorem reads_cells {cells : List Cell} (h : cells.length = n) :
    Reads (Take.many takeCell n) (cells.flatMap putCell) cells := by
  subst h
  exact Reads.many reads_cell cells

theorem reads_size {cols rows : UInt16} (hcols : cols ≠ 0) (hrows : rows ≠ 0) :
    Reads (takeSize cols rows) [] (cols.toNat * rows.toNat) := by
  unfold takeSize
  simp only [hcols, hrows, decide_false, Bool.or_self, Bool.false_eq_true, if_false]
  exact Reads.pure

-- ---------------------------------------------------------------------------
-- Flags
-- ---------------------------------------------------------------------------

theorem testBit_eq_getLsbD (f : UInt32) (h : i < 32) : testBit f i = f.toBitVec.getLsbD i := by
  have hi : (UInt32.ofNat i).toNat % 32 = i := by
    rw [UInt32.toNat_ofNat']
    omega
  have hmask : (1 <<< UInt32.ofNat i : UInt32).toBitVec = BitVec.twoPow 32 i := by
    rw [BitVec.twoPow_eq]
    simp [Nat.mod_eq_of_lt h]
  have hne : BitVec.twoPow 32 i ≠ 0#32 := by
    intro h0
    have := congrArg (fun v => BitVec.getLsbD v i) h0
    simp [h] at this
  unfold testBit
  rw [Bool.eq_iff_iff, decide_eq_true_iff, ne_eq, ← UInt32.toBitVec_inj, UInt32.toBitVec_and, hmask,
    BitVec.and_twoPow]
  cases f.toBitVec.getLsbD i
  · simp
  · simpa using hne

theorem testBit_packBits (bits : List Bool) (h : i < 32) :
    testBit (packBits bits) i = bits.getD i false := by
  rw [testBit_eq_getLsbD _ h]
  induction bits generalizing i with
  | nil => simp [packBits]
  | cons b bs ih =>
    cases i with
    | zero => cases b <;> simp [packBits]
    | succ i =>
      have hb : (if b then (1 : UInt32) else 0).toBitVec.getLsbD (i + 1) = false := by
        cases b <;> simp
      have hrest := ih (i := i) (by omega)
      change ((packBits bs <<< 1) ||| _).toBitVec.getLsbD (i + 1) = _
      rw [UInt32.toBitVec_or, BitVec.getLsbD_or, hb, Bool.or_false, List.getD_cons_succ, ← hrest]
      simp [h, -BitVec.getLsbD_eq_getElem]

-- ---------------------------------------------------------------------------
-- Hash
-- ---------------------------------------------------------------------------

/-- The hash does not read its own field. -/
theorem zeroHash_copyHash (out : List UInt8) (hash : UInt64) (h : 22 ≤ out.length) :
    zeroHash (copyHash out hash) = zeroHash out := by
  have hlen : (copyHash out hash).length = out.length := by
    simp only [copyHash, List.length_append, List.length_take, List.length_drop, length_toLe,
      hashOff]
    omega
  apply List.ext_getElem
  · simp [zeroHash, hlen]
  intro i h1 h2
  simp only [zeroHash, List.getElem_mapIdx]
  split
  case isTrue => rfl
  case isFalse hi =>
    have hbefore : (out.take hashOff).length = 14 := by simp [hashOff]; omega
    simp only [hashOff] at hi
    by_cases hlow : i < 14
    · simp only [copyHash]
      rw [List.getElem_append_left (by simp [hashOff]; omega),
        List.getElem_append_left (by omega), List.getElem_take]
    · simp only [copyHash]
      rw [List.getElem_append_right (by simp [hashOff]; omega), List.getElem_drop]
      congr 1
      simp [hashOff]
      omega

theorem fnv1a64_copyHash (out : List UInt8) (hash : UInt64) (h : 22 ≤ out.length) :
    fnv1a64WithZeroHash (copyHash out hash) = fnv1a64WithZeroHash out := by
  simp only [fnv1a64WithZeroHash, zeroHash_copyHash out hash h]

-- ---------------------------------------------------------------------------
-- Screens
-- ---------------------------------------------------------------------------

namespace Screen

/-- The host side of a screen after an import: full damage and no replies; the
count of dropped replies and the scrolled-off rows stay. -/
def importedHost (t : Screen) : Host :=
  { t.host with
    fullDamage := true
    damageRow0 := 0
    damageRow1 := 0
    replies := []
    discardReplies := false }

/-- Flags read back are the flags written. -/
theorem applyCheckpointFlags_checkpointFlags (s t : Screen) :
    t.applyCheckpointFlags s.checkpointFlags = { t with
      pendingWrap := s.pendingWrap
      autowrap := s.autowrap
      cursorVisible := s.cursorVisible
      inAlt := s.inAlt
      applicationCursorKeys := s.applicationCursorKeys
      applicationKeypad := s.applicationKeypad
      bracketedPaste := s.bracketedPaste
      mouseX10 := s.mouseX10
      mouseButton := s.mouseButton
      mouseAny := s.mouseAny
      mouseSgr := s.mouseSgr
      focusEvents := s.focusEvents } := by
  have hbit : ∀ i, i < 32 → testBit s.checkpointFlags i = s.flagBits.getD i false :=
    fun _ h => testBit_packBits _ h
  unfold applyCheckpointFlags
  rw [hbit 0 (by decide), hbit 1 (by decide), hbit 2 (by decide), hbit 3 (by decide),
    hbit 4 (by decide), hbit 5 (by decide), hbit 6 (by decide), hbit 7 (by decide),
    hbit 8 (by decide), hbit 9 (by decide), hbit 10 (by decide), hbit 11 (by decide)]
  rfl

theorem min_lastCol_eq {cols col : UInt16} (h : col.toNat < cols.toNat) :
    min col (satSub16 cols 1) = col := by
  rw [← UInt16.toNat_inj, toNat_min16, toNat_satSub16, UInt16.toNat_one]
  omega

theorem reads_payload {cols rows : Nat} {s : Screen} (h : Sound strict cols rows s) (t : Screen) :
    Reads t.takePayload s.payload (s.setHost t.importedHost) := by
  have hcols : s.cols ≠ 0 := by
    intro h0
    have := h.cols_pos
    rw [← h.cols_eq, h0] at this
    exact absurd this (by decide)
  have hrows : s.rows ≠ 0 := by
    intro h0
    have := h.rows_pos
    rw [← h.rows_eq, h0] at this
    exact absurd this (by decide)
  have hlen : s.cells.length = s.cols.toNat * s.rows.toNat := by
    rw [h.cols_eq, h.rows_eq, h.length_cells]
  have hsaved : ∀ grid, s.savedGrid = some grid →
      Reads (Take.many takeCell (s.cols.toNat * s.rows.toNat)) (grid.flatMap putCell) grid := by
    intro grid hgrid
    refine reads_cells ?_
    rw [h.length_saved grid hgrid, h.cols_eq, h.rows_eq]
  have hcol : min s.cursorCol (satSub16 s.cols 1) = s.cursorCol :=
    min_lastCol_eq (by rw [h.cols_eq]; exact h.cursorCol_lt)
  have hrow : min s.cursorRow (satSub16 s.rows 1) = s.cursorRow :=
    min_lastCol_eq (by rw [h.rows_eq]; exact h.cursorRow_lt)
  unfold takePayload payload
  refine (reads_u16 _).bind ((reads_u16 _).bind ((reads_size hcols hrows).bind_first ?_))
  refine (reads_u16 _).bind ((reads_u16 _).bind ((reads_u16 _).bind ((reads_u16 _).bind
    ((reads_u16 _).bind ((reads_u32 _).bind ((reads_color _).bind ((reads_color _).bind
    ((reads_palette _).bind ((reads_u32 _).bind ((reads_cells hlen).bind
    ((reads_option _ _ hsaved).bind ((reads_saved _).bind ((reads_saved _).bind
    ((reads_openCluster _).bind_last ?_))))))))))))))
  rw [applyCheckpointFlags_checkpointFlags, hcol, hrow]
  exact Reads.pure

/-- The hash of an exported blob, in the place of the zeros it was computed over. -/
theorem exportCheckpoint_eq (s : Screen) (offset : UInt64) :
    s.exportCheckpoint offset = magic ++ (putU16 version ++ (putU64 offset ++
      (putU64 (fnv1a64WithZeroHash (s.exportCheckpoint offset)) ++ s.payload))) := by
  have hlen : 22 ≤ (magic ++ putU16 version ++ putU64 offset ++ putU64 0 ++ s.payload).length := by
    simp [magic, putU16, putU64]
    omega
  have hhash := fnv1a64_copyHash _ (fnv1a64WithZeroHash
    (magic ++ putU16 version ++ putU64 offset ++ putU64 0 ++ s.payload)) hlen
  unfold exportCheckpoint
  simp only [hhash]
  generalize fnv1a64WithZeroHash _ = hash
  have hbefore : (magic ++ putU16 version ++ putU64 offset).length = hashOff := by
    simp [magic, putU16, putU64, hashOff]
  have hfield : (magic ++ putU16 version ++ putU64 offset ++ putU64 0).length = hashOff + 8 := by
    simp [magic, putU16, putU64, hashOff]
  unfold copyHash
  rw [List.drop_left' hfield, List.append_assoc _ (putU64 0), List.take_left' hbefore]
  simp only [List.append_assoc, putU64]

theorem importCheckpoint_exportCheckpoint {cols rows : Nat} {s : Screen} (h : Sound strict cols rows s)
    (t : Screen) (offset : UInt64) :
    t.importCheckpoint (s.exportCheckpoint offset) = .ok (offset, s.setHost t.importedHost) := by
  have hread := reads_payload h t []
  rw [List.append_nil] at hread
  have heq := exportCheckpoint_eq s offset
  generalize s.exportCheckpoint offset = blob at heq
  generalize hhash : fnv1a64WithZeroHash blob = hash at heq
  have hlen : ¬ blob.length < 22 := by
    simp [heq, magic, putU16, putU64]
    omega
  have hmagic : blob.take 4 = magic := by
    rw [heq]
    exact List.take_left' rfl
  have hversion : (blob.drop 4).take 2 = putU16 version := by
    rw [heq, List.drop_left' (by simp [magic])]
    exact List.take_left' (length_toLe _ _)
  have hoffset : (blob.drop 6).take 8 = putU64 offset := by
    rw [heq, ← List.append_assoc magic, List.drop_left' (by simp [magic, putU16])]
    exact List.take_left' (length_toLe _ _)
  have hstored : (blob.drop hashOff).take 8 = putU64 hash := by
    rw [heq, ← List.append_assoc magic, ← List.append_assoc _ (putU64 offset),
      List.drop_left' (by simp [magic, putU16, putU64, hashOff])]
    exact List.take_left' (length_toLe _ _)
  have hpayload : blob.drop 22 = s.payload := by
    rw [heq, ← List.append_assoc magic, ← List.append_assoc _ (putU64 offset),
      ← List.append_assoc _ (putU64 hash)]
    exact List.drop_left' (by simp [magic, putU16, putU64])
  have hword : ∀ v : UInt64, UInt64.ofNat (ofLe (putU64 v)) = v := by
    intro v
    rw [putU64, ofLe_toLe_of_lt v.toNat_lt, UInt64.ofNat_toNat]
  have hone : ofLe (putU16 version) = version.toNat := ofLe_toLe_of_lt (by decide)
  unfold importCheckpoint
  simp only [hlen, hmagic, hversion, hoffset, hstored, hpayload, hword, hone, hhash, hread]
  simp
  rfl

end Screen

end Rill.Vt
