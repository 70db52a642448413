import Rill.Vt.Bounds

/-!
# Import

The import reads everything before it writes anything, so it changes the engine
or fails. A checkpoint damaged in one byte, cut short or lengthened fails: the
hash sees every byte outside its own field, and the readers take exactly the
bytes the writers put.
-/

namespace Rill.Vt

open Lib.Bytes

-- ---------------------------------------------------------------------------
-- Decoding
-- ---------------------------------------------------------------------------

/-- What the import has read before it writes: the values as they stand in the
blob. -/
structure Decoded where
  cols : UInt16
  rows : UInt16
  cursorCol : UInt16
  cursorRow : UInt16
  scrollTop : UInt16
  scrollBottom : UInt16
  penAttrs : UInt16
  flags : UInt32
  penFg : Color
  penBg : Color
  palette : Palette
  graphemeTruncated : UInt32
  cells : List Cell
  savedGrid : Option (List Cell)
  savedCursor : Option SavedCursor
  altCursor : Option SavedCursor
  openCluster : Option OpenCluster

def takeDecoded : Take Error Decoded := do
  let cols ← takeU16
  let rows ← takeU16
  let n ← takeSize cols rows
  let cursorCol ← takeU16
  let cursorRow ← takeU16
  let scrollTop ← takeU16
  let scrollBottom ← takeU16
  let penAttrs ← takeU16
  let flags ← takeU32
  let penFg ← takeColor
  let penBg ← takeColor
  let palette ← takePalette
  let graphemeTruncated ← takeU32
  let cells ← Take.many takeCell n
  let savedGrid ← takeOption (.vt "bad saved grid tag") (Take.many takeCell n)
  let savedCursor ← takeSaved
  let altCursor ← takeSaved
  let openCluster ← takeOpenCluster
  pure { cols, rows, cursorCol, cursorRow, scrollTop, scrollBottom, penAttrs, flags, penFg, penBg,
         palette, graphemeTruncated, cells, savedGrid, savedCursor, altCursor, openCluster }

/-- The assignments at the end of the import, on the screen it is called on. -/
def Decoded.assign (x : Decoded) (s : Screen) : Screen :=
  { s.applyCheckpointFlags x.flags with
    cols := x.cols
    rows := x.rows
    cells := x.cells
    cursorCol := min x.cursorCol (satSub16 x.cols 1)
    cursorRow := min x.cursorRow (satSub16 x.rows 1)
    scrollTop := x.scrollTop
    scrollBottom := x.scrollBottom
    penAttrs := x.penAttrs
    penFg := x.penFg
    penBg := x.penBg
    palette := x.palette
    graphemeTruncated := x.graphemeTruncated
    savedGrid := x.savedGrid
    savedCursor := x.savedCursor
    altCursor := x.altCursor
    openCluster := x.openCluster
    fullDamage := true
    damageRow0 := 0
    damageRow1 := 0
    replies := []
    discardReplies := false }

theorem takePayload_eq (s : Screen) : s.takePayload = (fun x => x.assign s) <$> takeDecoded := by
  simp only [Screen.takePayload, takeDecoded, map_bind, map_pure]
  rfl

/-- `bytes[lo..hi]`, `none` where the source would panic. -/
def slice (bytes : List UInt8) (lo hi : Nat) : Option (List UInt8) :=
  if lo ≤ hi ∧ hi ≤ bytes.length then some ((bytes.drop lo).take (hi - lo)) else none

/-- The import step by step: the result with the screen as it is when the call
returns, `none` for a panic. -/
def Screen.importing (s : Screen) (bytes : List UInt8) : Option (Except Error UInt64 × Screen) :=
  if bytes.length < 22 then some (.error (.vt "truncated checkpoint"), s)
  else if bytes.take 4 ≠ magic then some (.error (.vt "bad checkpoint magic"), s)
  else do
    let versionBytes ← slice bytes 4 6
    if ofLe versionBytes ≠ version.toNat then
      return (.error (.vt "unsupported checkpoint version"), s)
    let offBytes ← slice bytes 6 14
    let endingOffset := UInt64.ofNat (ofLe offBytes)
    let hashBytes ← slice bytes hashOff 22
    let stored := UInt64.ofNat (ofLe hashBytes)
    if stored ≠ fnv1a64WithZeroHash bytes then
      return (.error (.vt "checkpoint hash mismatch"), s)
    let rest ← slice bytes 22 bytes.length
    match takeDecoded.run rest with
    | .error err => return (.error err, s)
    | .ok (x, rest) =>
      if !rest.isEmpty then return (.error (.vt "trailing checkpoint bytes"), s)
      return (.ok endingOffset, x.assign s)

def VtEngine.importing (e : VtEngine) (bytes : List UInt8) :
    Option (Except Error UInt64 × VtEngine) := do
  let (result, screen) ← e.screen.importing bytes
  match result with
  | .error err => return (.error err, { e with screen })
  | .ok offset => return (.ok offset, { parser := .new, screen })

theorem slice_of_le {bytes : List UInt8} (hlo : lo ≤ hi) (hhi : hi ≤ bytes.length) :
    slice bytes lo hi = some ((bytes.drop lo).take (hi - lo)) := if_pos ⟨hlo, hhi⟩

theorem Screen.importing_eq (s : Screen) (bytes : List UInt8) :
    s.importing bytes = some (match s.importCheckpoint bytes with
      | .error err => (.error err, s)
      | .ok (offset, t) => (.ok offset, t)) := by
  unfold Screen.importing Screen.importCheckpoint
  by_cases hlen : bytes.length < 22
  · simp only [hlen, if_true]
    rfl
  have hslice : ∀ lo hi, lo ≤ hi → hi ≤ 22 →
      slice bytes lo hi = some ((bytes.drop lo).take (hi - lo)) :=
    fun _ _ hlo hhi => slice_of_le hlo (by omega)
  have hversion : slice bytes 4 6 = some ((bytes.drop 4).take 2) := hslice 4 6 (by omega) (by omega)
  have hoffset : slice bytes 6 14 = some ((bytes.drop 6).take 8) := hslice 6 14 (by omega) (by omega)
  have hstored : slice bytes hashOff 22 = some ((bytes.drop hashOff).take 8) :=
    hslice hashOff 22 (by decide) (by omega)
  have hrest : slice bytes 22 bytes.length = some (bytes.drop 22) := by
    rw [slice_of_le (by omega) (Nat.le_refl _), ← List.length_drop, List.take_length]
  rw [if_neg hlen, if_neg hlen, hversion, hoffset, hstored, hrest, takePayload_eq, StateT.run_map]
  simp only [Option.bind_eq_bind, Option.bind_some]
  -- Each check of the import fails on both sides or passes on both.
  by_cases hm : bytes.take 4 ≠ magic
  · rw [if_pos hm, if_pos hm]
    rfl
  rw [if_neg hm, if_neg hm]
  by_cases hv : ofLe ((bytes.drop 4).take 2) ≠ version.toNat
  · rw [if_pos hv, if_pos hv]
    rfl
  rw [if_neg hv, if_neg hv]
  by_cases hh : UInt64.ofNat (ofLe ((bytes.drop hashOff).take 8)) ≠ fnv1a64WithZeroHash bytes
  · rw [if_pos hh, if_pos hh]
    rfl
  rw [if_neg hh, if_neg hh]
  cases takeDecoded.run (bytes.drop 22) with
  | error err => rfl
  | ok x =>
    obtain ⟨x, _ | ⟨b, rest⟩⟩ := x
    · rfl
    · rfl

theorem VtEngine.importing_eq (e : VtEngine) (bytes : List UInt8) :
    e.importing bytes = some (match e.importCheckpoint bytes with
      | .error err => (.error err, e)
      | .ok (offset, f) => (.ok offset, f)) := by
  unfold VtEngine.importing VtEngine.importCheckpoint
  rw [Screen.importing_eq]
  cases e.screen.importCheckpoint bytes with
  | error err => rfl
  | ok x => rfl

theorem Screen.importCheckpoint_ok {s t : Screen} {bytes : List UInt8}
    (h : s.importCheckpoint bytes = .ok (offset, t)) :
    22 ≤ bytes.length ∧ bytes.take 4 = magic ∧ ofLe ((bytes.drop 4).take 2) = version.toNat ∧
      UInt64.ofNat (ofLe ((bytes.drop hashOff).take 8)) = fnv1a64WithZeroHash bytes ∧
      ∃ x, takeDecoded.run (bytes.drop 22) = .ok (x, []) ∧ t = x.assign s := by
  unfold Screen.importCheckpoint at h
  rw [takePayload_eq, StateT.run_map] at h
  by_cases hlen : bytes.length < 22
  · rw [if_pos hlen] at h
    cases h
  by_cases hmagic : bytes.take 4 ≠ magic
  · rw [if_neg hlen, if_pos hmagic] at h
    cases h
  by_cases hversion : ofLe ((bytes.drop 4).take 2) ≠ version.toNat
  · rw [if_neg hlen, if_neg hmagic, if_pos hversion] at h
    cases h
  by_cases hhash : UInt64.ofNat (ofLe ((bytes.drop hashOff).take 8)) ≠ fnv1a64WithZeroHash bytes
  · rw [if_neg hlen, if_neg hmagic, if_neg hversion, if_pos hhash] at h
    cases h
  rw [if_neg hlen, if_neg hmagic, if_neg hversion, if_neg hhash] at h
  refine ⟨by omega, Decidable.not_not.mp hmagic, Decidable.not_not.mp hversion,
    Decidable.not_not.mp hhash, ?_⟩
  cases hx : takeDecoded.run (bytes.drop 22) with
  | error err =>
    rw [hx] at h
    cases h
  | ok x =>
    rw [hx] at h
    obtain ⟨x, _ | ⟨b, rest⟩⟩ := x
    · obtain ⟨-, rfl⟩ := Prod.mk.inj (Except.ok.inj h)
      exact ⟨x, rfl, rfl⟩
    · cases h

-- ---------------------------------------------------------------------------
-- Readers
-- ---------------------------------------------------------------------------

theorem extends_u8 : Extends takeU8 := .byte truncated

theorem extends_u16 : Extends takeU16 := (Extends.le truncated 2).map _

theorem extends_u32 : Extends takeU32 := (Extends.le truncated 4).map _

theorem extends_bool : Extends takeBool := extends_u8.map _

theorem extends_color : Extends takeColor := by
  refine extends_u8.bind fun tag => .ite (.pure _) (.ite (extends_u8.map _) (.ite ?_ (.throw _)))
  exact extends_u8.bind fun _ => extends_u8.bind fun _ => extends_u8.bind fun _ => .pure _

theorem extends_rgb : Extends takeRgb :=
  extends_u8.bind fun _ => extends_u8.bind fun _ => extends_u8.bind fun _ => .pure _

theorem extends_palette : Extends takePalette :=
  (extends_rgb.many 16).bind fun _ => extends_rgb.bind fun _ => extends_rgb.bind fun _ =>
    extends_rgb.bind fun _ => .pure _

theorem extends_cell : Extends takeCell :=
  extends_u32.bind fun _ => extends_u16.bind fun _ => extends_color.bind fun _ =>
    extends_color.bind fun _ => .pure _

theorem extends_option {take : Take Error α} (badTag : Error) (h : Extends take) :
    Extends (takeOption badTag take) :=
  extends_u8.bind fun _ => .ite (.pure _) (.ite (h.map _) (.throw _))

theorem extends_saved : Extends takeSaved :=
  extends_option _ (extends_u16.bind fun _ => extends_u16.bind fun _ => extends_bool.bind fun _ =>
    extends_color.bind fun _ => extends_color.bind fun _ => extends_u16.bind fun _ => .pure _)

theorem extends_openCluster : Extends takeOpenCluster :=
  extends_option _ (extends_u16.bind fun _ => extends_u16.bind fun _ => extends_u8.bind fun _ =>
    extends_bool.bind fun _ => extends_bool.bind fun _ => extends_u8.bind fun _ => .pure _)

theorem extends_size (cols rows : UInt16) : Extends (takeSize cols rows) :=
  .ite (.throw _) (.pure _)

theorem extends_decoded : Extends takeDecoded := by
  refine extends_u16.bind fun _ => extends_u16.bind fun _ => (extends_size _ _).bind fun n => ?_
  refine extends_u16.bind fun _ => extends_u16.bind fun _ => extends_u16.bind fun _ => ?_
  refine extends_u16.bind fun _ => extends_u16.bind fun _ => extends_u32.bind fun _ => ?_
  refine extends_color.bind fun _ => extends_color.bind fun _ => extends_palette.bind fun _ => ?_
  refine extends_u32.bind fun _ => (extends_cell.many n).bind fun _ => ?_
  refine (extends_option _ (extends_cell.many n)).bind fun _ => extends_saved.bind fun _ => ?_
  exact extends_saved.bind fun _ => extends_openCluster.bind fun _ => .pure _

theorem extends_payload (s : Screen) : Extends s.takePayload := by
  rw [takePayload_eq]
  exact extends_decoded.map _

theorem takePayload_of_decoded {x : Decoded} (s : Screen)
    (h : takeDecoded.run input = .ok (x, rest)) :
    s.takePayload.run input = .ok (x.assign s, rest) := by
  rw [takePayload_eq, StateT.run_map, h]
  rfl

-- ---------------------------------------------------------------------------
-- Hash
-- ---------------------------------------------------------------------------

def fnvStep (h : UInt64) (b : UInt8) : UInt64 := (h ^^^ b.toUInt64) * 0x100000001b3

theorem fnv1a64_eq (bytes : List UInt8) : fnv1a64 bytes = bytes.foldl fnvStep 0xcbf29ce484222325 :=
  rfl

/-- The prime is odd, so multiplying by it can be undone. -/
theorem mul_prime_inj {a b : UInt64} (h : a * 0x100000001b3 = b * 0x100000001b3) : a = b := by
  have hinv : (0x100000001b3 : UInt64) * 0xce965057aff6957b = 1 := by decide
  have h := congrArg (· * (0xce965057aff6957b : UInt64)) h
  simpa only [UInt64.mul_assoc, hinv, UInt64.mul_one] using h

theorem fnvStep_inj_hash {g h : UInt64} {b : UInt8} (heq : fnvStep g b = fnvStep h b) : g = h := by
  have hx := mul_prime_inj heq
  exact (UInt64.xor_left_inj _).mp hx

theorem fnvStep_inj_byte {h : UInt64} {b c : UInt8} (heq : fnvStep h b = fnvStep h c) : b = c := by
  have hx := (UInt64.xor_right_inj _).mp (mul_prime_inj heq)
  have hb := congrArg UInt64.toNat hx
  rw [UInt8.toNat_toUInt64, UInt8.toNat_toUInt64] at hb
  exact UInt8.toNat_inj.mp hb

theorem foldl_fnvStep_inj {g h : UInt64} (bytes : List UInt8)
    (heq : bytes.foldl fnvStep g = bytes.foldl fnvStep h) : g = h := by
  induction bytes generalizing g h with
  | nil => exact heq
  | cons b bytes ih => exact fnvStep_inj_hash (ih heq)

/-- One byte more or less changed and the hash is another, whatever comes after. -/
theorem fnv1a64_set_ne {bytes : List UInt8} (hi : i < bytes.length) (hc : c ≠ bytes[i]) :
    fnv1a64 (bytes.set i c) ≠ fnv1a64 bytes := by
  intro heq
  have hsplit : bytes = bytes.take i ++ bytes[i] :: bytes.drop (i + 1) := by simp
  rw [fnv1a64_eq, fnv1a64_eq, List.set_eq_take_append_cons_drop, if_pos hi] at heq
  conv at heq => rhs; rw [hsplit]
  simp only [List.foldl_append, List.foldl_cons] at heq
  exact hc (fnvStep_inj_byte (foldl_fnvStep_inj _ heq))

theorem zeroHash_set_outside (blob : List UInt8) (c : UInt8) (hi : ¬ (hashOff ≤ i ∧ i < hashOff + 8)) :
    zeroHash (blob.set i c) = (zeroHash blob).set i c := by
  apply List.ext_getElem
  · simp [zeroHash]
  intro k h1 h2
  simp only [zeroHash, List.getElem_mapIdx, List.getElem_set]
  by_cases hk : i = k
  · subst hk
    simp [hi]
  · simp [hk]

theorem zeroHash_set_inside (blob : List UInt8) (c : UInt8) (hi : hashOff ≤ i ∧ i < hashOff + 8) :
    zeroHash (blob.set i c) = zeroHash blob := by
  apply List.ext_getElem
  · simp [zeroHash]
  intro k h1 h2
  simp only [zeroHash, List.getElem_mapIdx, List.getElem_set]
  by_cases hk : i = k
  · subst hk
    simp [hi]
  · simp [hk]

-- ---------------------------------------------------------------------------
-- Damage
-- ---------------------------------------------------------------------------

/-- What happens to a blob on its way: one byte is another, the end is missing, or
there is more. -/
inductive Damaged (blob : List UInt8) : List UInt8 → Prop
  | byte (h : i < blob.length) (c : UInt8) (hc : c ≠ blob[i]) : Damaged blob (blob.set i c)
  | cut (h : n < blob.length) : Damaged blob (blob.take n)
  | more (h : more ≠ []) : Damaged blob (blob ++ more)

/-- The changed byte shows in every span that holds it. -/
theorem take_drop_set_ne {blob : List UInt8} (lo n : Nat) (h : i < blob.length)
    (hc : c ≠ blob[i]) (hlo : lo ≤ i) (hhi : i < lo + n) :
    ((blob.set i c).drop lo).take n ≠ (blob.drop lo).take n := by
  intro heq
  have hget := congrArg (fun l => l[i - lo]?) heq
  have hadd : lo + (i - lo) = i := by omega
  have hlt : i - lo < n := by omega
  simp only [List.getElem?_take, List.getElem?_drop, hadd, hlt, if_true, List.getElem?_set_self h,
    List.getElem?_eq_getElem h, Option.some.injEq] at hget
  exact hc hget

theorem ofLe_lt (bytes : List UInt8) : ofLe bytes < 256 ^ bytes.length := by
  induction bytes with
  | nil => exact Nat.one_pos
  | cons b bytes ih =>
    have hb := b.toNat_lt
    rw [ofLe, List.length_cons, Nat.pow_succ']
    omega

theorem ofLe_inj {a b : List UInt8} (hlen : a.length = b.length) (h : ofLe a = ofLe b) : a = b := by
  induction a generalizing b with
  | nil => exact (List.length_eq_zero_iff.mp hlen.symm).symm
  | cons x a ih =>
    obtain _ | ⟨y, b⟩ := b
    · cases hlen
    · have hx := x.toNat_lt
      have hy := y.toNat_lt
      simp only [ofLe] at h
      have hhead : x = y := UInt8.toNat_inj.mp (by omega)
      rw [hhead, ih (Nat.succ.inj hlen) (by omega)]

theorem toUInt64_ofLe_inj {a b : List UInt8} (ha : a.length = 8) (hb : b.length = 8)
    (h : UInt64.ofNat (ofLe a) = UInt64.ofNat (ofLe b)) : a = b := by
  have hlt := ofLe_lt a
  have hlt' := ofLe_lt b
  rw [ha] at hlt
  rw [hb] at hlt'
  refine ofLe_inj (ha.trans hb.symm) ?_
  have hn := congrArg UInt64.toNat h
  rwa [UInt64.toNat_ofNat_of_lt' hlt, UInt64.toNat_ofNat_of_lt' hlt'] at hn

/-- The checks of an accepted blob fail once a byte of it is another: the magic, the
version, the hash field and everything the hash is taken over. -/
theorem Screen.importCheckpoint_set {s t t' : Screen} {blob : List UInt8}
    (h : s.importCheckpoint blob = .ok (offset, t)) (hi : i < blob.length) (hc : c ≠ blob[i]) :
    t'.importCheckpoint (blob.set i c) ≠ .ok (offset', u) := by
  intro hd
  obtain ⟨hlen, hmagic, hversion, hhash, -⟩ := importCheckpoint_ok h
  obtain ⟨-, hmagic', hversion', hhash', -⟩ := importCheckpoint_ok hd
  by_cases h4 : i < 4
  · exact take_drop_set_ne 0 4 hi hc (Nat.zero_le i) (by omega) (hmagic'.trans hmagic.symm)
  by_cases h6 : i < 6
  · refine take_drop_set_ne 4 2 hi hc (by omega) (by omega) (ofLe_inj ?_ ?_)
    · simp
    · exact hversion'.trans hversion.symm
  by_cases hin : hashOff ≤ i ∧ i < hashOff + 8
  · refine take_drop_set_ne hashOff 8 hi hc hin.1 hin.2 (toUInt64_ofLe_inj ?_ ?_ ?_)
    · simp [hashOff]; omega
    · simp [hashOff]; omega
    · rw [hhash', hhash, fnv1a64WithZeroHash, zeroHash_set_inside blob c hin]
      rfl
  · have hstored : ((blob.set i c).drop hashOff).take 8 = (blob.drop hashOff).take 8 := by
      apply List.ext_getElem?
      intro k
      rw [List.getElem?_take, List.getElem?_take]
      split
      case isTrue hk => rw [List.getElem?_drop, List.getElem?_drop, List.getElem?_set_ne (by omega)]
      case isFalse => rfl
    rw [hstored, hhash, fnv1a64WithZeroHash, fnv1a64WithZeroHash, zeroHash_set_outside blob c hin]
      at hhash'
    refine @fnv1a64_set_ne i c (zeroHash blob) ?_ ?_ hhash'.symm
    · simpa [zeroHash] using hi
    · simpa [zeroHash, hin] using hc

theorem drop_exportCheckpoint (s : Screen) (offset : UInt64) :
    (s.exportCheckpoint offset).drop 22 = s.payload := by
  rw [Screen.exportCheckpoint_eq]
  simp only [← List.append_assoc]
  exact List.drop_left' (by simp [magic, putU16, putU64])

theorem importCheckpoint_damaged {s t u : Screen} (hs : Sound strict cols rows s)
    (hd : Damaged (s.exportCheckpoint offset) damaged) :
    t.importCheckpoint damaged ≠ .ok (ending, u) := by
  intro h
  have hpayload := drop_exportCheckpoint s offset
  have hok := Screen.importCheckpoint_exportCheckpoint hs t offset
  have hreads := Screen.reads_payload hs t
  generalize s.exportCheckpoint offset = blob at hd hpayload hok
  obtain ⟨hlen, -, -, -, x, hx, -⟩ := Screen.importCheckpoint_ok h
  have htaken := takePayload_of_decoded t hx
  cases hd with
  | byte hi c hc => exact Screen.importCheckpoint_set hok hi hc h
  | cut hn =>
    rename_i n
    rw [List.drop_take, hpayload] at htaken
    rw [← List.take_append_drop (n - 22) s.payload] at hreads
    have hnil := hreads.eq_nil_of_prefix (extends_payload t) htaken
    rw [List.drop_eq_nil_iff, ← hpayload, List.length_drop] at hnil
    rw [List.length_take] at hlen
    omega
  | more hmore =>
    obtain ⟨hfull, -⟩ := Screen.importCheckpoint_ok hok
    rw [List.drop_append_of_le_length hfull, hpayload, hreads] at htaken
    exact hmore (Prod.mk.inj (Except.ok.inj htaken)).2

-- ---------------------------------------------------------------------------
-- Engines
-- ---------------------------------------------------------------------------

namespace VtEngine

theorem importCheckpoint_ok {m f : VtEngine} (h : m.importCheckpoint blob = .ok (offset, f)) :
    ∃ x, takeDecoded.run (blob.drop 22) = .ok (x, []) ∧ f = ⟨.new, x.assign m.screen⟩ := by
  unfold VtEngine.importCheckpoint at h
  cases hs : m.screen.importCheckpoint blob with
  | error err =>
    rw [hs] at h
    cases h
  | ok y =>
    rw [hs] at h
    obtain ⟨-, rfl⟩ := Prod.mk.inj (Except.ok.inj h)
    obtain ⟨-, -, -, -, x, hx, hassign⟩ := Screen.importCheckpoint_ok hs
    exact ⟨x, hx, by rw [hassign]⟩

/-- The import never reads past the blob; it returns the new engine, or an error with
the engine as it was; and it returns an error on any damaged checkpoint. -/
theorem importing_checked :
    (∀ (e : VtEngine) bytes, ∃ result f, e.importing bytes = some (result, f) ∧
      ((∃ offset, result = .ok offset ∧ e.importCheckpoint bytes = .ok (offset, f)) ∨
        ∃ err, result = .error err ∧ f = e)) ∧
    ∀ (s e : VtEngine) offset blob damaged, Hosted s → s.exportCheckpoint offset = .ok blob →
      Damaged blob damaged → ∃ err, e.importing damaged = some (.error err, e) := by
  refine ⟨fun e bytes => ?_, fun s e offset blob damaged hs hblob hd => ?_⟩
  · rw [importing_eq]
    cases e.importCheckpoint bytes with
    | error err => exact ⟨_, _, rfl, .inr ⟨err, rfl, rfl⟩⟩
    | ok x => exact ⟨_, _, rfl, .inl ⟨x.1, rfl, rfl⟩⟩
  · obtain ⟨⟨cols, rows, hw⟩, -⟩ := hs.fits
    unfold exportCheckpoint at hblob
    split at hblob
    case isFalse => cases hblob
    case isTrue =>
      obtain rfl := Except.ok.inj hblob
      rw [importing_eq]
      cases hi : e.importCheckpoint damaged with
      | error err => exact ⟨err, rfl⟩
      | ok x =>
        unfold importCheckpoint at hi
        cases hscreen : e.screen.importCheckpoint damaged with
        | error err =>
          rw [hscreen] at hi
          cases hi
        | ok y => exact (importCheckpoint_damaged hw.sound hd hscreen).elim

/-- The checkpoint of a new 1 by 1 engine, cut after its magic. -/
theorem importing_checked_cut :
    let s := (VtEngine.new 1 1).toOption.get rfl
    ∃ err, s.importing ((s.screen.exportCheckpoint 7).take 4) = some (.error err, s) :=
  importing_checked.2 _ _ 7 _ _ (.new (show VtEngine.new 1 1 = _ from rfl)) rfl
    (.cut (by decide))

end VtEngine

end Rill.Vt
