import Mathlib.Order.Basic

/-!
# Bisection

A search of a row in order that looks somewhere and goes on with the part that is left.
Where it looks, and whether it stops at a match or keeps it, is open.
-/

namespace Lib

variable {α : Type} {cmp : α → Ordering} {l l₁ l₂ : List α} {a b : α} {found : Option α}

/-- What comes before something that is too small is too small, and what comes after something that
is too large is too large. -/
def InOrder (cmp : α → Ordering) (l : List α) : Prop :=
  l.Pairwise fun a b => (cmp b = .lt → cmp a = .lt) ∧ (cmp a = .gt → cmp b = .gt)

/-- A bisection of a row, with what it finds. -/
inductive Bisection (cmp : α → Ordering) : List α → Option α → Prop
  | nil : Bisection cmp [] none
  | stop {l₁ l₂ : List α} {a : α} (h : cmp a = .eq) : Bisection cmp (l₁ ++ a :: l₂) (some a)
  | after {l₁ l₂ : List α} {a : α} {found : Option α} (h : cmp a = .lt)
    (rest : Bisection cmp l₂ found) : Bisection cmp (l₁ ++ a :: l₂) found
  | before {l₁ l₂ : List α} {a : α} {found : Option α} (h : cmp a = .gt)
    (rest : Bisection cmp l₁ found) : Bisection cmp (l₁ ++ a :: l₂) found
  | keep {l₁ l₂ : List α} {a : α} {found : Option α} (h : cmp a ≠ .gt)
    (rest : Bisection cmp (a :: l₂) found) : Bisection cmp (l₁ ++ a :: l₂) found

namespace InOrder

theorem before (h : InOrder cmp (l₁ ++ a :: l₂)) (ha : cmp a = .lt) : ∀ b ∈ l₁, cmp b = .lt := by
  intro b hb
  have hpair := (List.pairwise_append.mp h).2.2 b hb a List.mem_cons_self
  exact hpair.1 ha

theorem after (h : InOrder cmp (l₁ ++ a :: l₂)) (ha : cmp a = .gt) : ∀ b ∈ l₂, cmp b = .gt := by
  intro b hb
  have htail := List.pairwise_append.mp h |>.2.1
  exact ((List.pairwise_cons.mp htail).1 b hb).2 ha

theorem any_before (h : InOrder cmp (l₁ ++ a :: l₂)) (ha : cmp a = .lt) :
    (l₁.any fun b => decide (cmp b = .eq)) = false :=
  List.any_eq_false.mpr fun b hb => by simp [h.before ha b hb]

theorem any_after (h : InOrder cmp (l₁ ++ a :: l₂)) (ha : cmp a = .gt) :
    (l₂.any fun b => decide (cmp b = .eq)) = false :=
  List.any_eq_false.mpr fun b hb => by simp [h.after ha b hb]

theorem left (h : InOrder cmp (l₁ ++ l₂)) : InOrder cmp l₁ := (List.pairwise_append.mp h).1

theorem right (h : InOrder cmp (l₁ ++ l₂)) : InOrder cmp l₂ := (List.pairwise_append.mp h).2.1

end InOrder

namespace Bisection

theorem matches_found (h : Bisection cmp l found) : ∀ a ∈ found, cmp a = .eq ∧ a ∈ l := by
  induction h with
  | nil => simp
  | stop h => simp [h]
  | after _ _ ih | before _ _ ih =>
    intro b hb
    obtain ⟨hmatch, hmem⟩ := ih b hb
    exact ⟨hmatch, by simp [hmem]⟩
  | keep _ _ ih =>
    intro b hb
    obtain ⟨hmatch, hmem⟩ := ih b hb
    exact ⟨hmatch, List.mem_append_right _ hmem⟩

/-- A bisection of a row in order finds something just if something matches. -/
theorem isSome_eq (h : Bisection cmp l found) (horder : InOrder cmp l) :
    found.isSome = l.any fun a => cmp a = .eq := by
  induction h with
  | nil => rfl
  | stop h => simp [h]
  | @after l₁ l₂ a found h _ ih =>
    have hsplit : InOrder cmp ((l₁ ++ [a]) ++ l₂) := by simpa using horder
    simp [ih hsplit.right, horder.any_before h, h]
  | @before l₁ l₂ a found h _ ih => simp [ih horder.left, horder.any_after h, h]
  | @keep l₁ l₂ a found h _ ih =>
    rw [ih horder.right, List.any_append]
    cases ha : cmp a with
    | gt => exact absurd ha h
    | eq => simp [ha]
    | lt => simp [horder.any_before ha]

/-- Where no two match, every bisection of a row in order finds the one that does. -/
theorem eq_find? (h : Bisection cmp l found) (horder : InOrder cmp l)
    (hone : ∀ a ∈ l, ∀ b ∈ l, cmp a = .eq → cmp b = .eq → a = b) :
    found = l.find? fun a => cmp a = .eq := by
  have hsome := h.isSome_eq horder
  have hmatch := h.matches_found
  rw [← List.isSome_find?] at hsome
  cases found with
  | none => exact (Option.isNone_iff_eq_none.mp (by simpa using hsome.symm)).symm
  | some a =>
    obtain ⟨b, hb⟩ := Option.isSome_iff_exists.mp hsome.symm
    obtain ⟨ha, hmem⟩ := hmatch a rfl
    have hb' : cmp b = .eq := by simpa using List.find?_some hb
    rw [hb, hone a hmem b (List.mem_of_find?_eq_some hb) ha hb']

end Bisection

-- ---------------------------------------------------------------------------
-- Halving
-- ---------------------------------------------------------------------------

/-- The bisection that looks in the middle, on a row of at most `n`. -/
def bisect (cmp : α → Ordering) : Nat → List α → Option α
  | 0, _ => none
  | n + 1, l =>
    match l.drop (l.length / 2) with
    | [] => none
    | a :: rest =>
      match cmp a with
      | .eq => some a
      | .lt => bisect cmp n rest
      | .gt => bisect cmp n (l.take (l.length / 2))

/-- There is always a bisection. -/
theorem bisection_bisect (cmp : α → Ordering) {n : Nat} {l : List α} (h : l.length ≤ n) :
    Bisection cmp l (bisect cmp n l) := by
  induction n generalizing l with
  | zero =>
    obtain rfl := List.length_eq_zero_iff.mp (Nat.le_zero.mp h)
    exact .nil
  | succ n ih =>
    have hsplit := List.take_append_drop (l.length / 2) l
    unfold bisect
    cases hdrop : l.drop (l.length / 2) with
    | nil =>
      have hlen := List.drop_eq_nil_iff.mp hdrop
      obtain rfl : l = [] := List.length_eq_zero_iff.mp (by omega)
      exact .nil
    | cons a rest =>
      have hlen := congrArg List.length hdrop
      rw [List.length_drop, List.length_cons] at hlen
      rw [hdrop] at hsplit
      have htake : (l.take (l.length / 2)).length ≤ n := by
        rw [List.length_take]
        omega
      dsimp only
      cases hcmp : cmp a with
      | eq =>
        have hstop : Bisection cmp (l.take (l.length / 2) ++ a :: rest) (some a) := .stop hcmp
        rwa [hsplit] at hstop
      | lt =>
        have hafter : Bisection cmp (l.take (l.length / 2) ++ a :: rest) (bisect cmp n rest) :=
          .after hcmp (ih (by omega))
        rwa [hsplit] at hafter
      | gt =>
        have hbefore : Bisection cmp (l.take (l.length / 2) ++ a :: rest)
            (bisect cmp n (l.take (l.length / 2))) := .before hcmp (ih htake)
        rwa [hsplit] at hbefore

end Lib
