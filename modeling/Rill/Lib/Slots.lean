import Mathlib.Data.List.Forall2

/-!
# Lists as slots

A list whose elements are known by their place: what reading, writing and
removing one place does to the rest.
-/

namespace Lib

variable {α : Type}

theorem exists_split {l : List α} {i : Nat} {a : α} (h : l[i]? = some a) :
    ∃ l₁ l₂, l = l₁ ++ a :: l₂ ∧ l₁.length = i := by
  induction l generalizing i with
  | nil => simp at h
  | cons b l ih =>
    cases i with
    | zero =>
      obtain rfl : b = a := by simpa using h
      exact ⟨[], l, rfl, rfl⟩
    | succ i =>
      obtain ⟨l₁, l₂, rfl, rfl⟩ := ih (by simpa using h)
      exact ⟨b :: l₁, l₂, rfl, rfl⟩

@[simp] theorem set_split (l₁ l₂ : List α) (a b : α) :
    (l₁ ++ a :: l₂).set l₁.length b = l₁ ++ b :: l₂ := by
  simp

@[simp] theorem eraseIdx_split (l₁ l₂ : List α) (a : α) :
    (l₁ ++ a :: l₂).eraseIdx l₁.length = l₁ ++ l₂ := by
  rw [List.eraseIdx_append_of_length_le (Nat.le_refl _), Nat.sub_self]
  rfl

/-- Whatever the list, what is in slot `i` once slot `k` is gone was in some other slot. -/
theorem exists_slot (k i : Nat) :
    ∃ j, j ≠ k ∧ ∀ {α : Type} (l : List α), (l.eraseIdx k)[i]? = l[j]? := by
  by_cases h : i < k
  · exact ⟨i, Nat.ne_of_lt h, fun l => List.getElem?_eraseIdx_of_lt h⟩
  · have hle := Nat.le_of_not_lt h
    exact ⟨i + 1, Nat.ne_of_gt (Nat.lt_succ_of_le hle), fun l => List.getElem?_eraseIdx_of_ge hle⟩

theorem length_eraseIdx_congr {β : Type} {l : List α} {l' : List β} (h : l.length = l'.length)
    (k : Nat) : (l.eraseIdx k).length = (l'.eraseIdx k).length := by
  rw [List.length_eraseIdx, List.length_eraseIdx, h]

/-- What is behind `b` in a list is behind `a`, when `b` is not before it. -/
theorem mem_behind {l₁ l₂ k₁ k₂ : List α} {a b : α} (h : l₁ ++ a :: l₂ = k₁ ++ b :: k₂) (hb : b ∉ l₁) :
    ∀ x ∈ k₂, x ∈ l₂ := by
  intro x hx
  rcases List.append_eq_append_iff.mp h with ⟨k, rfl, hk⟩ | ⟨k, rfl, hk⟩
  · cases k with
    | nil =>
      obtain ⟨rfl, rfl⟩ := List.cons.inj hk
      exact hx
    | cons c k =>
      obtain ⟨rfl, rfl⟩ := List.cons.inj hk
      exact List.mem_append_right _ (List.mem_cons_of_mem _ hx)
  · cases k with
    | nil =>
      obtain ⟨rfl, rfl⟩ := List.cons.inj hk
      exact hx
    | cons c k =>
      obtain ⟨rfl, -⟩ := List.cons.inj hk
      exact absurd (List.mem_append_right _ List.mem_cons_self) hb

theorem modify_of_get {l : List α} {i : Nat} {a : α} (h : l[i]? = some a) (f : α → α) :
    l.modify i f = l.set i (f a) := by
  obtain ⟨l₁, l₂, rfl, rfl⟩ := exists_split h
  rw [set_split, List.modify_eq_take_cons_drop (by simp)]
  simp

theorem set_of_get {l : List α} {i : Nat} {a : α} (h : l[i]? = some a) : l.set i a = l := by
  obtain ⟨hlt, rfl⟩ := List.getElem?_eq_some_iff.mp h
  exact List.set_getElem_self hlt

theorem modify_of_none {l : List α} {i : Nat} (h : l[i]? = none) (f : α → α) :
    l.modify i f = l :=
  List.modify_eq_self (List.getElem?_eq_none_iff.mp h)

theorem mem_set_cases {l : List α} {i : Nat} {a b : α} (h : b ∈ l.set i a) :
    b = a ∨ ∃ j, j ≠ i ∧ l[j]? = some b := by
  obtain ⟨j, hj⟩ := List.mem_iff_getElem?.mp h
  rw [List.getElem?_set] at hj
  split at hj
  case isTrue =>
    split at hj
    case isTrue => exact .inl (Option.some.inj hj).symm
    case isFalse => cases hj
  case isFalse hne => exact .inr ⟨j, fun h => hne h.symm, hj⟩

theorem mem_modify_cases {l : List α} {i : Nat} {f : α → α} {b : α} (h : b ∈ l.modify i f) :
    (∃ a, l[i]? = some a ∧ b = f a) ∨ ∃ j, j ≠ i ∧ l[j]? = some b := by
  cases hi : l[i]? with
  | none =>
    rw [modify_of_none hi] at h
    obtain ⟨j, hj⟩ := List.mem_iff_getElem?.mp h
    refine .inr ⟨j, ?_, hj⟩
    rintro rfl
    rw [hi] at hj
    cases hj
  | some a =>
    rw [modify_of_get hi] at h
    rcases mem_set_cases h with rfl | hother
    · exact .inl ⟨a, rfl, rfl⟩
    · exact .inr hother

theorem countP_set_add {l : List α} {i : Nat} {a : α} (h : l[i]? = some a) (p : α → Bool) (b : α) :
    (l.set i b).countP p + (p a).toNat = l.countP p + (p b).toNat := by
  obtain ⟨l₁, l₂, rfl, rfl⟩ := exists_split h
  rw [set_split]
  simp only [List.countP_append, List.countP_cons]
  cases p a with
  | false => cases p b with
    | false => rfl
    | true => simp; omega
  | true => cases p b with
    | false => simp; omega
    | true => simp

theorem countP_eraseIdx_add {l : List α} {i : Nat} {a : α} (h : l[i]? = some a) (p : α → Bool) :
    (l.eraseIdx i).countP p + (p a).toNat = l.countP p := by
  obtain ⟨l₁, l₂, rfl, rfl⟩ := exists_split h
  rw [eraseIdx_split]
  simp only [List.countP_append, List.countP_cons]
  cases p a with
  | false => simp
  | true => simp; omega

theorem any_set_same {l : List α} {i : Nat} {a b : α} {p : α → Bool}
    (h : l[i]? = some a) (hp : p b = p a) : (l.set i b).any p = l.any p := by
  obtain ⟨l₁, l₂, rfl, rfl⟩ := exists_split h
  rw [set_split, List.any_append, List.any_append, List.any_cons, List.any_cons, hp]

theorem filter_set_out {l : List α} {i : Nat} {a b : α} {p : α → Bool}
    (h : l[i]? = some a) (ha : p a = false) (hb : p b = false) :
    (l.set i b).filter p = l.filter p := by
  obtain ⟨l₁, l₂, rfl, rfl⟩ := exists_split h
  rw [set_split, List.filter_append, List.filter_append, List.filter_cons_of_neg (by simp [hb]),
    List.filter_cons_of_neg (by simp [ha])]

/-- Where at most one element has a property, two places that have it are one. -/
theorem unique_of_countP_le {l : List α} {p : α → Bool} (h : l.countP p ≤ 1) {i j : Nat} {a b : α}
    (hi : l[i]? = some a) (hj : l[j]? = some b) (ha : p a = true) (hb : p b = true) : i = j := by
  induction l generalizing i j with
  | nil => simp at hi
  | cons c l ih =>
    have hmem : ∀ {k d}, l[k]? = some d → p d = true → 0 < l.countP p := fun hk hd =>
      List.countP_pos_iff.mpr ⟨_, List.mem_of_getElem? hk, hd⟩
    rw [List.countP_cons] at h
    cases i with
    | zero =>
      obtain rfl : c = a := by simpa using hi
      cases j with
      | zero => rfl
      | succ j =>
        have hpos := hmem (by simpa using hj) hb
        rw [if_pos ha] at h
        omega
    | succ i =>
      have hi' : l[i]? = some a := by simpa using hi
      cases j with
      | zero =>
        obtain rfl : c = b := by simpa using hj
        have hpos := hmem hi' ha
        rw [if_pos hb] at h
        omega
      | succ j => rw [ih (by omega) hi' (by simpa using hj)]

-- ---------------------------------------------------------------------------
-- Two lists, slot by slot
-- ---------------------------------------------------------------------------

variable {β : Type} {R : α → β → Prop} {l : List α} {l' : List β}

theorem forall₂_getElem? (h : List.Forall₂ R l l') (i : Nat) : Option.Rel R l[i]? l'[i]? := by
  induction h generalizing i with
  | nil => exact .none
  | cons hab _ ih =>
    cases i with
    | zero => exact .some hab
    | succ i => exact ih i

theorem forall₂_modify (h : List.Forall₂ R l l') {i : Nat} {f : α → α} {g : β → β}
    (hfg : ∀ a b, l[i]? = some a → l'[i]? = some b → R a b → R (f a) (g b)) :
    List.Forall₂ R (l.modify i f) (l'.modify i g) := by
  induction h generalizing i with
  | nil =>
    rw [List.modify_nil, List.modify_nil]
    exact .nil
  | cons hab hl ih =>
    cases i with
    | zero => exact .cons (hfg _ _ rfl rfl hab) hl
    | succ i => exact .cons hab (ih fun a b ha hb => hfg a b ha hb)

theorem forall₂_append_iff {l₁ l₂ : List α} {l₁' l₂' : List β} (hlen : l₁.length = l₁'.length) :
    List.Forall₂ R (l₁ ++ l₂) (l₁' ++ l₂') ↔ List.Forall₂ R l₁ l₁' ∧ List.Forall₂ R l₂ l₂' := by
  constructor
  · intro h
    have hfirst := List.forall₂_take_append _ _ _ h
    have hlast := List.forall₂_drop_append _ _ _ h
    rw [← hlen] at hfirst hlast
    rw [List.take_left] at hfirst
    rw [List.drop_left] at hlast
    exact ⟨hfirst, hlast⟩
  · exact fun h => List.rel_append h.1 h.2

theorem forall₂_eraseIdx (h : List.Forall₂ R l l') (i : Nat) :
    List.Forall₂ R (l.eraseIdx i) (l'.eraseIdx i) := by
  induction h generalizing i with
  | nil => exact .nil
  | cons hab hl ih =>
    cases i with
    | zero => exact hl
    | succ i => exact .cons hab (ih i)

theorem forall₂_trans {R : α → α → Prop} (htrans : ∀ a b c, R a b → R b c → R a c) {l l' l'' : List α}
    (h : List.Forall₂ R l l') (k : List.Forall₂ R l' l'') : List.Forall₂ R l l'' := by
  induction h generalizing l'' with
  | nil => exact k
  | cons hab _ ih =>
    obtain ⟨c, rest, hbc, hrest, rfl⟩ := List.forall₂_cons_left_iff.mp k
    exact .cons (htrans _ _ _ hab hbc) (ih hrest)

theorem forall₂_modify_right {R : α → α → Prop} (hrefl : ∀ a, R a a) {l : List α} {i : Nat} {f : α → α}
    (hf : ∀ a, l[i]? = some a → R a (f a)) : List.Forall₂ R l (l.modify i f) := by
  induction l generalizing i with
  | nil => simp
  | cons a l ih =>
    cases i with
    | zero => exact .cons (hf a rfl) (List.forall₂_same.mpr fun b _ => hrefl b)
    | succ i => exact .cons (hrefl a) (ih fun b hb => hf b hb)

-- ---------------------------------------------------------------------------
-- One place changed
-- ---------------------------------------------------------------------------

theorem map_modify_congr {β : Type} {g : α → β} {f : α → α} (hf : ∀ x, g (f x) = g x) (l : List α)
    (i : Nat) : (l.modify i f).map g = l.map g := by
  induction l generalizing i with
  | nil => simp
  | cons x l ih => cases i <;> simp [hf, ih]

theorem any_modify_congr {p : α → Bool} {f : α → α} (hf : ∀ x, p (f x) = p x) (l : List α) (i : Nat) :
    (l.modify i f).any p = l.any p := by
  induction l generalizing i with
  | nil => simp
  | cons x l ih => cases i <;> simp [hf, ih]

/-- Where nothing met `p` before, what is changed decides. -/
theorem any_modify_of_none {p : α → Bool} {l : List α} (h : l.any p = false) {i : Nat} {x : α}
    (hx : l[i]? = some x) (f : α → α) : (l.modify i f).any p = p (f x) := by
  induction l generalizing i with
  | nil => cases hx
  | cons y l ih =>
    obtain ⟨hy, hl⟩ : p y = false ∧ l.any p = false := by simpa using h
    cases i with
    | zero =>
      obtain rfl : y = x := by simpa using hx
      simp [hl]
    | succ i => simpa [hy] using ih hl (by simpa using hx)

end Lib
