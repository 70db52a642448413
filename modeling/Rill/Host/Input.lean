import Rill.Host.Speech
import Rill.Lib.Bracket
import Rill.Lib.Text
import Rill.Vt.Replies

/-!
# What the host types

A paste is bracketed and a pointer event reported as the modes of the client's
engine ask for it; the bytes go to the program as input.
-/

namespace Rill.Host

open Lib Attach Vt
open Kernel (u64Max)

-- ---------------------------------------------------------------------------
-- Pastes
-- ---------------------------------------------------------------------------

/-- `ESC [ 2 0 0 ~`. -/
def pasteStart : List UInt8 := [0x1b, 0x5b, 0x32, 0x30, 0x30, 0x7e]

/-- `ESC [ 2 0 1 ~`. -/
def pasteEnd : List UInt8 := [0x1b, 0x5b, 0x32, 0x30, 0x31, 0x7e]

def wrapPaste (bracketed : Bool) (body : List UInt8) : List UInt8 :=
  if !bracketed then body else pasteStart ++ body ++ pasteEnd

namespace Client

def wrapPaste (c : Client) (body : List UInt8) : List UInt8 := Host.wrapPaste c.modes.bracketedPaste body

def paste (body : List UInt8) : Op Client Error Unit := do
  let c ← get
  sendInput (c.wrapPaste body)

end Client

/-- What a program that asked for brackets takes its input for: a paste up to the first closing
mark, and what is typed behind it. -/
def readPaste (bytes : List UInt8) : Option (List UInt8 × List UInt8) :=
  if pasteStart.isPrefixOf bytes then
    (cut? pasteEnd (bytes.drop pasteStart.length)).map fun parts =>
      (parts.1, parts.2.drop pasteEnd.length)
  else none

/-- The body is one paste and nothing is typed, and the marks are where they were put. -/
structure OnePaste (body bytes : List UInt8) : Prop where
  read : readPaste bytes = some (body, [])
  opened : ∀ x y, bytes = x ++ pasteStart ++ y → x = []
  closed : ∀ x y, bytes = x ++ pasteEnd ++ y → y = []

theorem onePaste_iff (body : List UInt8) :
    OnePaste body (pasteStart ++ body ++ pasteEnd) ↔
      ¬ pasteStart <:+: body ∧ ¬ pasteEnd <:+: body := by
  have hstart : (0x1b : UInt8) ∉ [0x5b, 0x32, 0x30, 0x30, 0x7e] := by decide
  have hend : (0x1b : UInt8) ∉ [0x5b, 0x32, 0x30, 0x31, 0x7e] := by decide
  have hopened := opened_iff hstart (q := [0x5b, 0x32, 0x30, 0x31, 0x7e]) rfl (by decide) body
  have hclosed := closed_iff hstart hend rfl (by decide) body
  constructor
  · intro h
    exact ⟨hopened.mp h.opened, hclosed.mp h.closed⟩
  · rintro ⟨hnostart, hnoend⟩
    refine ⟨?_, hopened.mpr hnostart, hclosed.mpr hnoend⟩
    have hcut : cut? pasteEnd (body ++ pasteEnd) = some (body, pasteEnd) := cut?_closed hend hnoend
    have hdrop : (pasteStart ++ body ++ pasteEnd).drop pasteStart.length = body ++ pasteEnd := by
      rw [List.append_assoc, List.drop_left]
    have hprefix : pasteStart.isPrefixOf (pasteStart ++ body ++ pasteEnd) = true := by
      rw [List.isPrefixOf_iff_prefix, List.append_assoc]
      exact List.prefix_append _ _
    rw [readPaste, if_pos hprefix, hdrop, hcut]
    rfl

namespace Client

theorem sends_sendInput {c : Client} (halive : c.alive = true) {bytes : List UInt8}
    (hfits : (Frame.data bytes).Fits) : Sends c ((sendInput bytes).exec c).2 [.data bytes] := by
  have hlive : ¬ (!c.alive) = true := by simp [halive]
  rw [sendInput, Op.exec_get_bind, Op.exec_guard_neg hlive, Op.exec_modify_bind, Op.exec_modify_bind]
  have hcounted : Sends c { c.followLive with
      bytesSent := min (c.followLive.bytesSent + bytes.length) u64Max } [] := .of_eq rfl rfl rfl
  exact hcounted.trans (Sends.send _ hfits)

/-- What a paste sends is one paste just when its body has neither mark. -/
theorem paste_iff (c : Client) (h : c.modes.bracketedPaste = true) (body : List UInt8) :
    (c.alive = true → (Frame.data (c.wrapPaste body)).Fits →
        Sends c ((paste body).exec c).2 [.data (c.wrapPaste body)]) ∧
      (OnePaste body (c.wrapPaste body) ↔ ¬ pasteStart <:+: body ∧ ¬ pasteEnd <:+: body) := by
  refine ⟨fun halive hfits => ?_, ?_⟩
  · rw [paste, Op.exec_get_bind]
    exact sends_sendInput halive hfits
  · have hwrap : c.wrapPaste body = pasteStart ++ body ++ pasteEnd := by
      simp [wrapPaste, Host.wrapPaste, h]
    rw [hwrap]
    exact onePaste_iff body

def bracketing : Client :=
  let c := Client.new ⟨[], [], []⟩ ⟨2, 1, none⟩ ((VtEngine.new 2 1).toOption.get rfl)
  { c with modes := { c.modes with bracketedPaste := true } }

/-- An ESC that starts neither mark goes out in one frame and is read in one paste. -/
theorem paste_iff_arrow :
    let body : List UInt8 := [0x6c, 0x73, 0x1b, 0x5b, 0x41, 0x0d]
    Sends bracketing ((paste body).exec bracketing).2 [.data (bracketing.wrapPaste body)] ∧
      OnePaste body (bracketing.wrapPaste body) := by
  intro body
  obtain ⟨hsends, hone⟩ := paste_iff bracketing rfl body
  refine ⟨hsends rfl (by decide), hone.mpr ⟨?_, ?_⟩⟩
  · decide
  · decide

/-- Behind a closing mark of its own the body is typed: here a command, and return. -/
theorem paste_breaks_out :
    let body : List UInt8 := [0x61] ++ pasteEnd ++ [0x6c, 0x73, 0x0d]
    readPaste (bracketing.wrapPaste body) = some ([0x61], [0x6c, 0x73, 0x0d] ++ pasteEnd) ∧
      ¬ ∀ body, OnePaste body (bracketing.wrapPaste body) := by
  intro body
  have hread : readPaste (bracketing.wrapPaste body) =
      some ([0x61], [0x6c, 0x73, 0x0d] ++ pasteEnd) := by decide
  refine ⟨hread, fun hall => ?_⟩
  have hpaste := (hall body).read
  rw [hread] at hpaste
  exact absurd hpaste (by decide)

end Client

-- ---------------------------------------------------------------------------
-- Pointer events
-- ---------------------------------------------------------------------------

def pointerPress : UInt8 := 0
def pointerRelease : UInt8 := 1
def pointerWheelUp : UInt8 := 2
def pointerWheelDown : UInt8 := 3

def pointerReporting (modes : TerminalModeState) : Bool :=
  modes.mouseX10 || modes.mouseButton || modes.mouseAny || modes.mouseSgr

def encodePointer (modes : TerminalModeState) (kind button : UInt8) (col row : UInt16) : List UInt8 :=
  if !pointerReporting modes then []
  else
    let col := max col 1
    let row := max row 1
    let report : Option (UInt8 × Bool) :=
      if kind = pointerPress then some (button, false)
      else if kind = pointerRelease then some (button, true)
      else if kind = pointerWheelUp then some (64, false)
      else if kind = pointerWheelDown then some (65, false)
      else none
    match report with
    | none => []
    | some (cb, release) =>
      if modes.mouseSgr then
        [0x1b, 0x5b, 0x3c] ++ numeral cb.toNat ++ [0x3b] ++ numeral col.toNat ++ [0x3b] ++
          numeral row.toNat ++ [if release then 0x6d else 0x4d]
      else
        let cx := satAdd16 32 (min col 223)
        let cy := satAdd16 32 (min row 223)
        let b := satAdd16 32 (min cb 223).toUInt16
        [0x1b, 0x5b, 0x4d, (min b 255).toUInt8, (min cx 255).toUInt8, (min cy 255).toUInt8]

def Client.sendPointer (kind button : UInt8) (col row : UInt16) : Op Client Error Bool := do
  let c ← get
  let bytes := encodePointer c.modes kind button col row
  if bytes.isEmpty then pure false
  else
    sendInput bytes
    pure true

-- ---------------------------------------------------------------------------
-- Reports
-- ---------------------------------------------------------------------------

inductive PointerKind
  | press (button : UInt8)
  | release (button : UInt8)
  | wheelUp
  | wheelDown
  deriving DecidableEq

structure PointerEvent where
  kind : PointerKind
  col : UInt16
  row : UInt16
  deriving DecidableEq

namespace PointerKind

def byte : PointerKind → UInt8
  | press _ => pointerPress
  | release _ => pointerRelease
  | wheelUp => pointerWheelUp
  | wheelDown => pointerWheelDown

/-- The button of the call, which the wheel has none of. -/
def button : PointerKind → UInt8
  | press b | release b => b
  | wheelUp | wheelDown => 0

/-- The wheel has the codes of two more buttons. -/
def code : PointerKind → UInt8
  | press b | release b => b
  | wheelUp => 64
  | wheelDown => 65

def isRelease : PointerKind → Bool
  | release _ => true
  | _ => false

/-- SGR reports differ in the code or the final letter, the others in the code up to 223. -/
def Apart (sgr : Bool) (a b : PointerKind) : Prop :=
  if sgr then a.code ≠ b.code ∨ a.isRelease ≠ b.isRelease else min a.code 223 ≠ min b.code 223

instance (sgr : Bool) (a b : PointerKind) : Decidable (Apart sgr a b) := by
  unfold Apart
  infer_instance

end PointerKind

namespace PointerEvent

def encode (modes : TerminalModeState) (e : PointerEvent) : List UInt8 :=
  encodePointer modes e.kind.byte e.kind.button e.col e.row

/-- Cells count from one, and in three bytes up to 223. -/
def Encodable (modes : TerminalModeState) (e : PointerEvent) : Prop :=
  1 ≤ e.col ∧ 1 ≤ e.row ∧ (modes.mouseSgr = false → e.col ≤ 223 ∧ e.row ≤ 223)

instance (modes : TerminalModeState) (e : PointerEvent) : Decidable (e.Encodable modes) := by
  unfold Encodable
  infer_instance

variable {modes : TerminalModeState} {e f : PointerEvent}

theorem max_one {n : UInt16} (h : 1 ≤ n) : max n 1 = n := by
  change (if n ≤ 1 then 1 else n) = n
  split
  case isTrue hle => exact UInt16.le_antisymm h hle
  case isFalse => rfl

theorem encode_sgr (hon : pointerReporting modes = true) (hsgr : modes.mouseSgr = true)
    (he : e.Encodable modes) :
    e.encode modes = [0x1b, 0x5b, 0x3c] ++ numeral e.kind.code.toNat ++ [0x3b] ++ numeral e.col.toNat ++
      [0x3b] ++ numeral e.row.toNat ++ [if e.kind.isRelease then 0x6d else 0x4d] := by
  obtain ⟨kind, col, row⟩ := e
  obtain ⟨hcol, hrow, -⟩ := he
  cases kind
  all_goals
    simp only [encode, encodePointer, hon, max_one hcol, max_one hrow, hsgr, PointerKind.byte]
    rfl

def packed (n : UInt16) : UInt8 := (min (satAdd16 32 n) 255).toUInt8

theorem encode_packed (hon : pointerReporting modes = true) (hsgr : modes.mouseSgr = false)
    (he : e.Encodable modes) :
    e.encode modes =
      [0x1b, 0x5b, 0x4d, packed (min e.kind.code 223).toUInt16, packed e.col, packed e.row] := by
  obtain ⟨kind, col, row⟩ := e
  obtain ⟨hcol, hrow, hcell⟩ := he
  obtain ⟨hcol', hrow'⟩ := hcell hsgr
  have hmin : ∀ n : UInt16, n ≤ 223 → min n 223 = n := fun n hn => if_pos hn
  cases kind
  all_goals
    simp only [encode, encodePointer, hon, max_one hcol, max_one hrow, hmin col hcol', hmin row hrow', hsgr,
      PointerKind.byte]
    rfl

theorem length_encode (hon : pointerReporting modes = true) (he : e.Encodable modes) :
    0 < (e.encode modes).length ∧ (e.encode modes).length ≤ 21 := by
  cases hsgr : modes.mouseSgr with
  | true =>
    have hcode := length_numeral_le (n := e.kind.code.toNat) (by have := e.kind.code.toNat_lt; omega)
    have hcol := length_numeral_le (n := e.col.toNat) (by have := e.col.toNat_lt; omega)
    have hrow := length_numeral_le (n := e.row.toNat) (by have := e.row.toNat_lt; omega)
    rw [encode_sgr hon hsgr he]
    simp only [List.length_append, List.length_cons, List.length_nil]
    omega
  | false =>
    rw [encode_packed hon hsgr he]
    simp

/-- A pointer event goes out as one frame when the program of a live client asked for it. -/
theorem sends_sendPointer {c : Client} (halive : c.alive = true) (hon : pointerReporting c.modes = true)
    (he : e.Encodable c.modes) :
    c.Sends ((Client.sendPointer e.kind.byte e.kind.button e.col e.row).exec c).2
      [.data (e.encode c.modes)] := by
  obtain ⟨hpos, hlen⟩ := length_encode hon he
  have hsome : (encodePointer c.modes e.kind.byte e.kind.button e.col e.row).isEmpty = false := by
    rw [List.isEmpty_eq_false_iff]
    exact List.length_pos_iff.mp hpos
  have hfits : (Frame.data (e.encode c.modes)).Fits := le_trans hlen (by decide)
  have hstate : ∀ m : Op Client Error Unit,
      ((m >>= fun _ => pure true : Op Client Error Bool).exec c).2 = (m.exec c).2 := by
    intro m
    rw [Op.exec_bind]
    rcases m.exec c with ⟨error | ⟨⟩, t⟩ <;> rfl
  rw [Client.sendPointer, Op.exec_get_bind]
  simp only [hsome, Bool.false_eq_true, if_false]
  rw [hstate]
  exact Client.sends_sendInput halive hfits

theorem toNat_packed {n : UInt16} (h : n ≤ 223) : (packed n).toNat = 32 + n.toNat := by
  have hlow : (32 : UInt16).toNat = 32 := rfl
  have hmax : (255 : UInt16).toNat = 255 := rfl
  have hn : n.toNat ≤ 223 := UInt16.le_iff_toNat_le.mp h
  have hsum : (satAdd16 32 n).toNat = 32 + n.toNat := by
    rw [satAdd16, if_pos (by omega), UInt16.toNat_add]
    omega
  rw [packed, UInt16.toNat_toUInt8, toNat_min16]
  omega

theorem packed_inj {m n : UInt16} (hm : m ≤ 223) (hn : n ≤ 223) : packed m = packed n ↔ m = n := by
  rw [← UInt8.toNat_inj, toNat_packed hm, toNat_packed hn, Nat.add_left_cancel_iff, UInt16.toNat_inj]

theorem capped_le (b : UInt8) : (min b 223).toUInt16 ≤ 223 := by
  rw [UInt16.le_iff_toNat_le, UInt8.toNat_toUInt16]
  change (if b ≤ 223 then b else 223).toNat ≤ 223
  split
  case isTrue h => exact UInt8.le_iff_toNat_le.mp h
  case isFalse => exact Nat.le_refl 223

theorem numeral_inj {m n : Nat} : numeral m = numeral n ↔ m = n := by
  constructor
  · intro h
    rw [← (numeral_reads m).2, h, (numeral_reads n).2]
  · rintro rfl
    rfl

theorem numeral_append_inj {m n : Nat} {rest more : List UInt8} :
    numeral m ++ 0x3b :: rest = numeral n ++ 0x3b :: more ↔ m = n ∧ rest = more := by
  have hsep : ∀ n, 0x3b ∉ numeral n := fun n h => absurd ((numeral_reads n).1 _ h) (by decide)
  constructor
  · intro h
    have hdigits := eq_of_stop_prefix (hsep m) (hsep n) ⟨rest, by simpa using h⟩
    obtain rfl := numeral_inj.mp hdigits
    simpa using h
  · rintro ⟨rfl, rfl⟩
    rfl

theorem sgr_inj {c c' : UInt8} {x x' y y' : UInt16} {b b' : Bool} :
    [0x1b, 0x5b, 0x3c] ++ numeral c.toNat ++ [0x3b] ++ numeral x.toNat ++ [0x3b] ++ numeral y.toNat ++
        [if b then 0x6d else 0x4d] =
      [0x1b, 0x5b, 0x3c] ++ numeral c'.toNat ++ [0x3b] ++ numeral x'.toNat ++ [0x3b] ++
        numeral y'.toNat ++ [if b' then (0x6d : UInt8) else 0x4d] ↔
      c = c' ∧ x = x' ∧ y = y' ∧ b = b' := by
  constructor
  · intro h
    simp only [List.append_assoc, List.cons_append, List.nil_append, List.cons.injEq, true_and,
      numeral_append_inj, UInt8.toNat_inj, UInt16.toNat_inj] at h
    obtain ⟨hc, hx, hlast⟩ := h
    obtain ⟨hy, hend⟩ := List.append_inj' hlast rfl
    refine ⟨hc, hx, UInt16.toNat_inj.mp (numeral_inj.mp hy), ?_⟩
    cases b <;> cases b' <;> simp at hend ⊢
  · rintro ⟨rfl, rfl, rfl, rfl⟩
    rfl

theorem packed_code_inj {c c' : UInt8} :
    packed (min c 223).toUInt16 = packed (min c' 223).toUInt16 ↔ min c 223 = min c' 223 := by
  rw [packed_inj (capped_le c) (capped_le c'), ← UInt16.toNat_inj, UInt8.toNat_toUInt16,
    UInt8.toNat_toUInt16, UInt8.toNat_inj]

/-- Two events in range are told apart by their cells or by what is sent of their kinds. -/
theorem encode_ne_iff (hon : pointerReporting modes = true) (he : e.Encodable modes)
    (hf : f.Encodable modes) : e.encode modes ≠ f.encode modes ↔
      e.col ≠ f.col ∨ e.row ≠ f.row ∨ PointerKind.Apart modes.mouseSgr e.kind f.kind := by
  cases hsgr : modes.mouseSgr with
  | true =>
    rw [encode_sgr hon hsgr he, encode_sgr hon hsgr hf, ne_eq, sgr_inj]
    simp only [PointerKind.Apart, if_true]
    tauto
  | false =>
    obtain ⟨hecol, herow⟩ := he.2.2 hsgr
    obtain ⟨hfcol, hfrow⟩ := hf.2.2 hsgr
    rw [encode_packed hon hsgr he, encode_packed hon hsgr hf]
    simp only [ne_eq, List.cons.injEq, true_and, and_true, packed_code_inj, packed_inj hecol hfcol,
      packed_inj herow hfrow, PointerKind.Apart, Bool.false_eq_true, if_false]
    tauto

/-- The wheel and a click at one cell, in SGR. -/
theorem encode_ne_wheel :
    let modes : TerminalModeState := ⟨false, false, false, true, false, false, true, false, false, true⟩
    PointerEvent.encode modes ⟨.wheelUp, 7, 65535⟩ ≠ PointerEvent.encode modes ⟨.press 0, 7, 65535⟩ := by
  intro modes
  have hon : pointerReporting modes = true := rfl
  exact (encode_ne_iff hon (by decide) (by decide)).mpr (.inr (.inr (by decide)))

/-- Without SGR a release is another press. -/
theorem release_reads_press :
    let modes : TerminalModeState := ⟨false, false, false, true, false, false, false, false, false, true⟩
    ¬ ∀ e f : PointerEvent, e.Encodable modes → f.Encodable modes → e ≠ f →
      e.encode modes ≠ f.encode modes := by
  intro modes hall
  have hne := hall ⟨.press 0, 1, 1⟩ ⟨.release 0, 1, 1⟩ (by decide) (by decide) (by decide)
  exact hne (by decide)

end PointerEvent

end Rill.Host
