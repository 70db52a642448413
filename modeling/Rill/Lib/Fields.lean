import Mathlib.Algebra.BigOperators.Group.List.Basic
import Mathlib.Algebra.GroupWithZero.Nat
import Mathlib.Data.List.Basic
import Mathlib.Data.List.DropRight

/-!
# The fields of a line

A line cut at its blanks, and lists of values with a separator between. A line that is cut
short keeps the fields in front of the cut, and a list of which the end is missing is not the
list that was written.
-/

namespace Lib

variable {α ν : Type}

-- ---------------------------------------------------------------------------
-- Fields
-- ---------------------------------------------------------------------------

def fields (blank : α → Bool) (l : List α) : List (List α) :=
  (l.splitOnP blank).filter fun w => !w.isEmpty

section
variable {blank : α → Bool}

@[simp] theorem fields_nil : fields blank [] = [] := by simp [fields]

theorem fields_append_cons {c : α} (hc : blank c = true) (l m : List α) :
    fields blank (l ++ c :: m) = fields blank l ++ fields blank m := by
  simp only [fields, List.splitOnP_append_cons l m hc, List.filter_append]

theorem fields_cons {c : α} (hc : blank c = true) (l : List α) : fields blank (c :: l) = fields blank l := by
  simpa using fields_append_cons hc [] l

theorem fields_concat {c : α} (hc : blank c = true) (l : List α) :
    fields blank (l ++ [c]) = fields blank l := by
  simpa using fields_append_cons hc l []

theorem fields_solid {w : List α} (h : ∀ c ∈ w, blank c = false) :
    fields blank w = [w].filter fun w => !w.isEmpty := by
  rw [fields, List.splitOnP_eq_singleton h]

theorem fields_dropWhile (l : List α) : fields blank (l.dropWhile blank) = fields blank l := by
  induction l with
  | nil => rfl
  | cons c l ih =>
    by_cases hc : blank c = true
    · rw [List.dropWhile_cons_of_pos hc, fields_cons hc, ih]
    · rw [List.dropWhile_cons_of_neg hc]

theorem fields_rdropWhile (l : List α) : fields blank (l.rdropWhile blank) = fields blank l := by
  induction l using List.reverseRecOn with
  | nil => rfl
  | append_singleton l c ih =>
    by_cases hc : blank c = true
    · rw [List.rdropWhile_concat_pos _ _ _ hc, fields_concat hc, ih]
    · rw [List.rdropWhile_concat_neg _ _ _ hc]

def strip (blank : α → Bool) (l : List α) : List α := (l.dropWhile blank).rdropWhile blank

theorem rdropWhile_append_cons {c : α} (hc : blank c = false) (l m : List α) :
    (l ++ c :: m).rdropWhile blank = l ++ c :: m.rdropWhile blank := by
  have hneg : ¬ blank c = true := by rw [hc]; exact Bool.false_ne_true
  induction m using List.reverseRecOn with
  | nil => rw [List.rdropWhile_concat_neg _ _ _ hneg, List.rdropWhile_nil]
  | append_singleton m d ih =>
    rw [← List.cons_append, ← List.append_assoc]
    by_cases hd : blank d = true
    · rw [List.rdropWhile_concat_pos _ _ _ hd, List.rdropWhile_concat_pos _ _ _ hd, ih]
    · rw [List.rdropWhile_concat_neg _ _ _ hd, List.rdropWhile_concat_neg _ _ _ hd]
      simp

theorem dropWhile_append_cons {c : α} (hc : blank c = false) (l m : List α) :
    (l ++ c :: m).dropWhile blank = l.dropWhile blank ++ c :: m := by
  have hneg : ¬ blank c = true := by rw [hc]; exact Bool.false_ne_true
  induction l with
  | nil => rw [List.nil_append, List.dropWhile_cons_of_neg hneg]; rfl
  | cons d l ih =>
    by_cases hd : blank d = true
    · rw [List.cons_append, List.dropWhile_cons_of_pos hd, List.dropWhile_cons_of_pos hd, ih]
    · rw [List.cons_append, List.dropWhile_cons_of_neg hd, List.dropWhile_cons_of_neg hd, List.cons_append]

theorem strip_append_cons {c : α} (hc : blank c = false) (l m : List α) :
    strip blank (l ++ c :: m) = l.dropWhile blank ++ c :: m.rdropWhile blank := by
  rw [strip, dropWhile_append_cons hc, rdropWhile_append_cons hc]

theorem strip_eq_nil {l : List α} (h : ∀ c ∈ l, blank c = true) : strip blank l = [] := by
  rw [strip, List.dropWhile_eq_nil_iff.mpr h, List.rdropWhile_nil]

theorem blank_or (blank : α → Bool) (l : List α) :
    (∀ c ∈ l, blank c = true) ∨ ∃ x c y, blank c = false ∧ l = x ++ c :: y := by
  by_cases h : ∀ c ∈ l, blank c = true
  · exact .inl h
  · push Not at h
    obtain ⟨c, hc, hblank⟩ := h
    obtain ⟨x, y, rfl⟩ := List.append_of_mem hc
    exact .inr ⟨x, c, y, by simpa using hblank, rfl⟩

theorem strip_strip (l : List α) : strip blank (strip blank l) = strip blank l := by
  obtain h | ⟨x, c, y, hc, rfl⟩ := blank_or blank l
  · rw [strip_eq_nil h]
    rfl
  · rw [strip_append_cons hc, strip_append_cons hc, List.dropWhile_idempotent, List.rdropWhile_idempotent]

theorem mem_of_mem_strip {c : α} {l : List α} (h : c ∈ strip blank l) : c ∈ l :=
  (List.dropWhile_sublist _).subset ((List.rdropWhile_prefix _ _).subset h)

theorem mem_dropWhile_of_neg {c : α} {l : List α} (hc : blank c = false) (h : c ∈ l) :
    c ∈ l.dropWhile blank := by
  obtain ⟨x, y, rfl⟩ := List.append_of_mem h
  rw [dropWhile_append_cons hc]
  exact List.mem_append_right _ List.mem_cons_self

theorem mem_strip_of_neg {c : α} {l : List α} (hc : blank c = false) (h : c ∈ l) : c ∈ strip blank l := by
  obtain ⟨x, y, rfl⟩ := List.append_of_mem h
  rw [strip_append_cons hc]
  exact List.mem_append_right _ List.mem_cons_self

/-- A cut behind a field leaves it whole, one inside it leaves its start. -/
theorem fields_take_solid_cons {w : List α} (h : ∀ c ∈ w, blank c = false) {c : α} (hc : blank c = true)
    (rest : List α) (k : Nat) :
    fields blank ((w ++ c :: rest).take k) =
      ([w.take k].filter fun w => !w.isEmpty) ++ fields blank (rest.take (k - (w.length + 1))) := by
  have htake : ∀ a ∈ w.take k, blank a = false := fun a ha => h a (List.mem_of_mem_take ha)
  rcases Nat.lt_or_ge w.length k with hk | hk
  · obtain ⟨j, rfl⟩ := Nat.exists_eq_add_of_lt hk
    have hrest : (w ++ c :: rest).take (w.length + j + 1) = w ++ c :: rest.take j := by
      rw [Nat.add_assoc, List.take_length_add_append, List.take_succ_cons]
    have hj : w.length + j + 1 - (w.length + 1) = j := by omega
    rw [hrest, fields_append_cons hc, fields_solid h, List.take_of_length_le (Nat.le_of_lt hk), hj]
  · have hzero : k - (w.length + 1) = 0 := by omega
    rw [List.take_append_of_le_length hk, fields_solid htake, hzero]
    simp

end

-- ---------------------------------------------------------------------------
-- Keys
-- ---------------------------------------------------------------------------

section
variable [DecidableEq α]

/-- A cut inside `key ++ v` leaves the key with the start of `v`, or no key. -/
theorem dropPrefix?_take_append (key v : List α) (k : Nat) :
    ((key ++ v).take k).dropPrefix? key =
      if key.length ≤ k then some (v.take (k - key.length)) else none := by
  split
  case isTrue hk =>
    rw [List.dropPrefix?_eq_some_iff]
    refine ⟨key, ?_, by simp⟩
    rw [List.take_append, List.take_of_length_le hk]
  case isFalse hk =>
    rw [Option.eq_none_iff_forall_ne_some]
    intro s hs
    obtain ⟨key', hkey, hbeq⟩ := List.dropPrefix?_eq_some_iff.mp hs
    obtain rfl : key' = key := by simpa using hbeq
    have hlen := congrArg List.length hkey
    rw [List.length_take, List.length_append, List.length_append] at hlen
    omega

theorem dropPrefix?_eq_none {a b : α} (h : a ≠ b) (l key : List α) (k : Nat) :
    ((b :: l).take k).dropPrefix? (a :: key) = none := by
  cases k with
  | zero => rfl
  | succ k =>
    have hne : (b == a) = false := by simpa using Ne.symm h
    simp [List.dropPrefix?, hne]

end

-- ---------------------------------------------------------------------------
-- Lists of values
-- ---------------------------------------------------------------------------

/-- How values are written and read. No text is read for less than what is written takes. -/
structure Spelling (ν α : Type) where
  write : ν → List α
  read : List α → Option ν
  read_write : ∀ v, read (write v) = some v
  length_write_le : ∀ {t v}, read t = some v → (write v).length ≤ t.length
  write_ne_nil : ∀ v, write v ≠ []

namespace Spelling

variable (s : Spelling ν α) (sep : α)

def writeAll (vs : List ν) : List α := [sep].intercalate (vs.map s.write)

/-- What does not read is left out. -/
def readAll [DecidableEq α] (l : List α) : List ν := if l.isEmpty then [] else (l.splitOn sep).filterMap s.read

@[simp] theorem writeAll_nil : s.writeAll sep [] = [] := rfl

theorem writeAll_cons_ne_nil (v : ν) (vs : List ν) : s.writeAll sep (v :: vs) ≠ [] := by
  have hv := s.write_ne_nil v
  cases vs <;> simp [writeAll, hv]

theorem length_writeAll_cons (v : ν) (vs : List ν) :
    (s.writeAll sep (v :: vs)).length + 1 = ((v :: vs).map fun v => (s.write v).length + 1).sum := by
  induction vs generalizing v with
  | nil => simp [writeAll]
  | cons w vs ih =>
    have h := ih w
    simp only [writeAll, List.map_cons, List.intercalate_cons_cons, List.length_append,
      List.length_singleton, List.sum_cons] at h ⊢
    omega

theorem mem_writeAll {c : α} {vs : List ν} (h : c ∈ s.writeAll sep vs) :
    c = sep ∨ ∃ v ∈ vs, c ∈ s.write v := by
  induction vs with
  | nil => cases h
  | cons v vs ih =>
    cases vs with
    | nil =>
      rw [writeAll, List.map_singleton, List.intercalate_singleton] at h
      exact .inr ⟨v, List.mem_singleton_self v, h⟩
    | cons w vs =>
      simp only [writeAll, List.map_cons, List.intercalate_cons_cons, List.mem_append,
        List.mem_singleton] at h
      rcases h with (h | h) | h
      · exact .inr ⟨v, List.mem_cons_self, h⟩
      · exact .inl h
      · rcases ih (by simpa only [writeAll, List.map_cons] using h) with hsep | ⟨u, hu, hc⟩
        · exact .inl hsep
        · exact .inr ⟨u, List.mem_cons_of_mem v hu, hc⟩

section
variable [DecidableEq α]

@[simp] theorem readAll_nil : s.readAll sep [] = [] := rfl

theorem readAll_writeAll (hsep : ∀ v, sep ∉ s.write v) (vs : List ν) :
    s.readAll sep (s.writeAll sep vs) = vs := by
  cases vs with
  | nil => rfl
  | cons v vs =>
    have hne : (s.writeAll sep (v :: vs)).isEmpty = false := by
      simpa using s.writeAll_cons_ne_nil sep v vs
    have hclean : ∀ l ∈ (v :: vs).map s.write, sep ∉ l := by
      intro l hl
      obtain ⟨u, -, rfl⟩ := List.mem_map.mp hl
      exact hsep u
    rw [readAll, hne, if_neg Bool.false_ne_true, writeAll, List.splitOn_intercalate sep hclean (by simp),
      List.filterMap_map]
    have hread : s.read ∘ s.write = some := funext s.read_write
    rw [hread, List.filterMap_some]

end

/-- A piece that does not read can only shorten the list. -/
theorem length_intercalate_le (pieces : List (List α)) :
    (s.writeAll sep (pieces.filterMap s.read)).length ≤ ([sep].intercalate pieces).length := by
  induction pieces with
  | nil => exact Nat.le_refl 0
  | cons t pieces ih =>
    have htail : ([sep].intercalate pieces).length ≤ ([sep].intercalate (t :: pieces)).length := by
      cases pieces with
      | nil => exact Nat.zero_le _
      | cons p pieces =>
        rw [List.intercalate_cons_cons, List.length_append]
        exact Nat.le_add_left _ _
    cases ht : s.read t with
    | none =>
      rw [List.filterMap_cons_none ht]
      exact Nat.le_trans ih htail
    | some v =>
      have hv := s.length_write_le ht
      rw [List.filterMap_cons_some ht]
      cases hvs : pieces.filterMap s.read with
      | nil =>
        rw [writeAll, List.map_singleton, List.intercalate_singleton]
        cases pieces <;> simp <;> omega
      | cons u us =>
        cases pieces with
        | nil => cases hvs
        | cons p pieces =>
          rw [hvs] at ih
          simp only [writeAll, List.map_cons, List.intercalate_cons_cons, List.length_append] at ih ⊢
          omega

theorem length_writeAll_readAll_le [DecidableEq α] (l : List α) :
    (s.writeAll sep (s.readAll sep l)).length ≤ l.length := by
  rw [readAll]
  split
  case isTrue => exact Nat.zero_le _
  case isFalse =>
    have h := s.length_intercalate_le sep (l.splitOn sep)
    rwa [List.intercalate_splitOn] at h

/-- The start of a list is the list only when nothing is missing. -/
theorem readAll_take_iff [DecidableEq α] (hsep : ∀ v, sep ∉ s.write v) (vs : List ν) (k : Nat) :
    s.readAll sep ((s.writeAll sep vs).take k) = vs ↔ (s.writeAll sep vs).length ≤ k := by
  constructor
  · intro h
    have hle := s.length_writeAll_readAll_le sep ((s.writeAll sep vs).take k)
    rw [h, List.length_take] at hle
    omega
  · intro h
    rw [List.take_of_length_le h, s.readAll_writeAll sep hsep]

theorem read_take_iff (v : ν) (k : Nat) :
    s.read ((s.write v).take k) = some v ↔ (s.write v).length ≤ k := by
  constructor
  · intro h
    have hle := s.length_write_le h
    rw [List.length_take] at hle
    omega
  · intro h
    rw [List.take_of_length_le h, s.read_write]

end Spelling

-- ---------------------------------------------------------------------------
-- Decimal words
-- ---------------------------------------------------------------------------

/-- The value of decimal digits with at most a plus sign before them, when it is below `bound`. -/
def decimalBelow (bound : Nat) (text : List Char) : Option Nat :=
  let digits := (text.dropPrefix? ['+']).getD text
  if digits ≠ [] ∧ digits.all Char.isDigit ∧ Nat.ofDigitChars 10 digits 0 < bound then
    some (Nat.ofDigitChars 10 digits 0)
  else none

theorem ofDigitChars_lt_pow {digits : List Char} (h : digits.all Char.isDigit = true) :
    Nat.ofDigitChars 10 digits 0 < 10 ^ digits.length := by
  induction digits with
  | nil => exact Nat.one_pos
  | cons c digits ih =>
    rw [List.all_cons, Bool.and_eq_true] at h
    obtain ⟨hc, hrest⟩ := h
    have hd : c.toNat - '0'.toNat ≤ 9 := by
      have hle : c.toNat ≤ 57 := (Char.isDigit_iff_toNat.mp hc).2
      have hzero : '0'.toNat = 48 := rfl
      omega
    have ih := ih hrest
    have hmul := Nat.mul_le_mul_left (10 ^ digits.length) hd
    rw [Nat.ofDigitChars_cons, Nat.mul_zero, Nat.zero_add, Nat.ofDigitChars_eq_ofDigitChars_zero,
      List.length_cons, Nat.pow_succ]
    omega

theorem decimalBelow_toDigits {bound n : Nat} (h : n < bound) :
    decimalBelow bound (Nat.toDigits 10 n) = some n := by
  have hall : (Nat.toDigits 10 n).all Char.isDigit = true :=
    List.all_eq_true.mpr fun c hc => Nat.isDigit_of_mem_toDigits (by decide) (by decide) hc
  have hplus : (Nat.toDigits 10 n).dropPrefix? ['+'] = none := by
    rw [Option.eq_none_iff_forall_ne_some]
    intro s hs
    obtain ⟨p, hp, hbeq⟩ := List.dropPrefix?_eq_some_iff.mp hs
    obtain rfl : p = ['+'] := by simpa using hbeq
    rw [hp, List.cons_append, List.all_cons] at hall
    cases hall
  rw [decimalBelow, hplus, Option.getD_none]
  simp [hall, h, Nat.toDigits_ne_nil]

theorem decimalBelow_lt {bound n : Nat} {text : List Char} (h : decimalBelow bound text = some n) :
    n < bound := by
  simp only [decimalBelow, Option.ite_none_right_eq_some, Option.some.injEq] at h
  obtain ⟨⟨-, -, hlt⟩, rfl⟩ := h
  exact hlt

theorem length_toDigits_le {bound n : Nat} {text : List Char} (h : decimalBelow bound text = some n) :
    (Nat.toDigits 10 n).length ≤ text.length := by
  have hdigits : ((text.dropPrefix? ['+']).getD text).length ≤ text.length := by
    cases hp : text.dropPrefix? ['+'] with
    | none => exact Nat.le_refl _
    | some rest =>
      obtain ⟨p, rfl, -⟩ := List.dropPrefix?_eq_some_iff.mp hp
      simp
  simp only [decimalBelow, Option.ite_none_right_eq_some, Option.some.injEq] at h
  obtain ⟨⟨hne, hall, -⟩, rfl⟩ := h
  refine Nat.le_trans ?_ hdigits
  rw [Nat.length_toDigits_le_iff (by decide) (List.length_pos_iff.mpr hne)]
  exact ofDigitChars_lt_pow hall

/-- Words of 64 bits, in decimal. -/
def decimal64 : Spelling UInt64 Char where
  write v := Nat.toDigits 10 v.toNat
  read t := (decimalBelow (2 ^ 64) t).map UInt64.ofNat
  read_write v := by rw [decimalBelow_toDigits v.toNat_lt, Option.map_some, UInt64.ofNat_toNat]
  length_write_le h := by
    obtain ⟨n, hn, rfl⟩ := Option.map_eq_some_iff.mp h
    rw [UInt64.toNat_ofNat_of_lt' (decimalBelow_lt hn)]
    exact length_toDigits_le hn
  write_ne_nil _ := Nat.toDigits_ne_nil

theorem isDigit_of_mem_decimal64 {c : Char} {v : UInt64} (h : c ∈ decimal64.write v) : c.isDigit = true :=
  Nat.isDigit_of_mem_toDigits (by decide) (by decide) h

end Lib
