import Mathlib.Data.List.Basic

/-!
# Text as bytes

A string is its UTF-8 bytes. Reading them back gives the string, what is read is
written the same way, and a number's decimal digits tell which number it is. Read with
replacement, any bytes are a text.
-/

namespace Lib

def asBytes (s : String) : List UInt8 := s.toByteArray.data.toList

/-- The text the bytes are, `none` when they are not UTF-8. -/
def fromUtf8 (bytes : List UInt8) : Option String := String.fromUTF8? ⟨bytes.toArray⟩

theorem asBytes_inj {s t : String} : asBytes s = asBytes t ↔ s = t := by
  constructor
  · intro h
    exact String.toByteArray_inj.mp (ByteArray.ext (Array.toList_inj.mp h))
  · rintro rfl
    rfl

@[simp] theorem fromUtf8_asBytes (s : String) : fromUtf8 (asBytes s) = some s := by
  have harray : (⟨(asBytes s).toArray⟩ : ByteArray) = s.toByteArray := rfl
  rw [fromUtf8, harray, String.fromUTF8?, dif_pos s.isValidUTF8]
  rfl

theorem asBytes_of_fromUtf8 {bytes : List UInt8} {s : String} (h : fromUtf8 bytes = some s) :
    asBytes s = bytes := by
  rw [fromUtf8, String.fromUTF8?] at h
  split at h
  case isTrue => rw [← Option.some.inj h]; rfl
  case isFalse => cases h

theorem asBytes_ofList (l : List Char) : asBytes (String.ofList l) = l.flatMap String.utf8EncodeChar := by
  simp [asBytes, List.utf8Encode]

theorem length_asBytes_le (s : String) : (asBytes s).length ≤ 4 * s.length := by
  have hall : ∀ l : List Char, (l.flatMap String.utf8EncodeChar).length ≤ 4 * l.length := by
    intro l
    induction l with
    | nil => exact Nat.zero_le _
    | cons c l ih =>
      have hc := c.utf8Size_le_four
      rw [List.flatMap_cons, List.length_append, String.length_utf8EncodeChar, List.length_cons]
      omega
  have h := hall s.toList
  rwa [← asBytes_ofList, String.ofList_toList, String.length_toList] at h

-- ---------------------------------------------------------------------------
-- Decimals
-- ---------------------------------------------------------------------------

theorem repr_inj {m n : Nat} : m.repr = n.repr ↔ m = n := by
  constructor
  · intro h
    rw [Nat.repr_eq_ofList_toDigits, Nat.repr_eq_ofList_toDigits, String.ofList_inj] at h
    have hm := Nat.ofDigitChars_toDigits (n := m) (b := 10) (by decide) (by decide)
    rw [h, Nat.ofDigitChars_toDigits (by decide) (by decide)] at hm
    exact hm.symm
  · rintro rfl
    rfl

theorem not_mem_digits {c : Char} (hc : c.isDigit = false) (n : Nat) : c ∉ (toString n).toList := by
  intro h
  have hmem : c ∈ Nat.toDigits 10 n := by simpa [Nat.toString_eq_ofList_toDigits] using h
  simp [Nat.isDigit_of_mem_toDigits (by decide) (by decide) hmem] at hc

/-- Two texts up to the same first `x` are one. -/
theorem eq_of_stop_prefix {α : Type} {x : α} {d e rest : List α} (hd : x ∉ d) (he : x ∉ e)
    (h : d ++ [x] <+: e ++ x :: rest) : d = e := by
  induction d generalizing e with
  | nil =>
    cases e with
    | nil => rfl
    | cons b e =>
      have hx : x = b := (List.cons_prefix_cons.mp h).1
      exact absurd (hx ▸ List.mem_cons_self) he
  | cons a d ih =>
    cases e with
    | nil =>
      have hx : a = x := (List.cons_prefix_cons.mp h).1
      exact absurd (hx ▸ List.mem_cons_self) hd
    | cons b e =>
      obtain ⟨rfl, hrest⟩ := List.cons_prefix_cons.mp h
      rw [ih (fun hx => hd (.tail _ hx)) (fun hx => he (.tail _ hx)) hrest]

-- ---------------------------------------------------------------------------
-- Reading with replacement
-- ---------------------------------------------------------------------------

/-- A sequence begun: its bits so far, how many bytes are missing and the range of the next. -/
structure Sequence where
  code : Nat
  missing : Nat
  low : UInt8
  high : UInt8

def Sequence.begin? (b : UInt8) : Option Sequence :=
  if 0xc2 ≤ b ∧ b ≤ 0xdf then some ⟨b.toNat % 32, 1, 0x80, 0xbf⟩
  else if b = 0xe0 then some ⟨0, 2, 0xa0, 0xbf⟩
  else if b = 0xed then some ⟨13, 2, 0x80, 0x9f⟩
  else if 0xe1 ≤ b ∧ b ≤ 0xef then some ⟨b.toNat % 16, 2, 0x80, 0xbf⟩
  else if b = 0xf0 then some ⟨0, 3, 0x90, 0xbf⟩
  else if 0xf1 ≤ b ∧ b ≤ 0xf3 then some ⟨b.toNat % 8, 3, 0x80, 0xbf⟩
  else if b = 0xf4 then some ⟨4, 3, 0x80, 0x8f⟩
  else none

/-- A byte with no sequence begun: what it reads as, and the sequence it begins. -/
def readFirst (b : UInt8) : List Char × Option Sequence :=
  if b < 0x80 then ([Char.ofNat b.toNat], none)
  else
    match Sequence.begin? b with
    | some s => ([], some s)
    | none => (['\ufffd'], none)

/-- What breaks a sequence off is read afresh. -/
def Sequence.readNext (s : Sequence) (b : UInt8) : List Char × Option Sequence :=
  if s.low ≤ b ∧ b ≤ s.high then
    let code := s.code * 64 + b.toNat % 64
    if s.missing = 1 then ([Char.ofNat code], none) else ([], some ⟨code, s.missing - 1, 0x80, 0xbf⟩)
  else
    let (text, s) := readFirst b
    ('\ufffd' :: text, s)

def lossyFrom : Option Sequence → List UInt8 → List Char
  | none, [] => []
  | some _, [] => ['\ufffd']
  | s, b :: bytes =>
    let (text, s) := s.elim (readFirst b) fun s => s.readNext b
    text ++ lossyFrom s bytes

/-- The text of the bytes; a U+FFFD stands for what is not UTF-8. -/
def fromUtf8Lossy (bytes : List UInt8) : List Char := lossyFrom none bytes

def isAscii (text : List Char) : Bool := text.all fun c => c.toNat < 128

theorem utf8EncodeChar_ascii {c : Char} (h : c.toNat < 128) :
    String.utf8EncodeChar c = [UInt8.ofNat c.toNat] := by
  have hsize : c.utf8Size = 1 := Char.utf8Size_eq_one_iff.mpr (by
    rw [UInt32.le_iff_toNat_le]
    exact Nat.le_of_lt_succ h)
  exact String.utf8EncodeChar_eq_singleton hsize

theorem fromUtf8Lossy_cons_ascii {c : Char} (h : c.toNat < 128) (bytes : List UInt8) :
    fromUtf8Lossy (UInt8.ofNat c.toNat :: bytes) = c :: fromUtf8Lossy bytes := by
  have hval : (UInt8.ofNat c.toNat).toNat = c.toNat := UInt8.toNat_ofNat_of_lt' (Nat.lt_trans h (by decide))
  have hlt : UInt8.ofNat c.toNat < 0x80 := by
    rw [UInt8.lt_iff_toNat_lt, hval]
    exact h
  simp [fromUtf8Lossy, lossyFrom, readFirst, hlt, hval]

/-- The start of an ASCII text, cut at a byte. -/
theorem fromUtf8Lossy_take_asBytes {text : List Char} (h : isAscii text = true) (k : Nat) :
    fromUtf8Lossy ((asBytes (String.ofList text)).take k) = text.take k := by
  rw [asBytes_ofList]
  induction text generalizing k with
  | nil => simp [fromUtf8Lossy, lossyFrom]
  | cons c text ih =>
    simp only [isAscii, List.all_cons, Bool.and_eq_true, decide_eq_true_eq] at h
    cases k with
    | zero => rfl
    | succ k =>
      rw [List.flatMap_cons, utf8EncodeChar_ascii h.1, List.singleton_append, List.take_succ_cons,
        fromUtf8Lossy_cons_ascii h.1, ih h.2, List.take_succ_cons]

end Lib
