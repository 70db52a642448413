import Rill.Lib.Mask

/-!
# Brackets

A body between two marks of one length that begin alike, with something that
they have nowhere else. What is not in the body is nowhere but where it was put.
-/

namespace Lib

variable {α : Type} {e : α} {p q r b t w x y : List α}

/-- A mark does not begin in what has not its first element. -/
theorem mark_infix_append (he : e ∉ r) : e :: p <:+: r ++ b ↔ e :: p <:+: b := by
  induction r with
  | nil => rfl
  | cons c r ih =>
    obtain ⟨hne, he⟩ := not_or.mp (List.mem_cons.not.mp he)
    have hstart : ¬ e :: p <+: c :: (r ++ b) := fun h => hne (List.cons_prefix_cons.mp h).1
    rw [List.cons_append, List.infix_cons_iff, or_iff_right hstart, ih he]

/-- A mark that goes on behind what it begins in would have its first element again. -/
theorem mark_infix_left (hp : e ∉ p) (h : p ++ y = w ++ e :: t) : p <+: w := by
  obtain ⟨a, hw, -⟩ | ⟨a, hp', ha⟩ := List.append_eq_append_iff.mp h
  · exact ⟨a, hw.symm⟩
  · cases a with
    | nil =>
      rw [List.append_nil] at hp'
      exact hp' ▸ List.prefix_refl w
    | cons c a =>
      obtain ⟨rfl, -⟩ := List.cons.inj ha
      exact absurd (hp' ▸ List.mem_append_right w List.mem_cons_self) hp

/-- In front of a mark of the same length another mark is in the text, or is that one. -/
theorem mark_append_mark (hp : e ∉ p) (hlen : p.length = q.length) (hw : ¬ e :: p <:+: w)
    (h : w ++ e :: q = x ++ e :: p ++ y) : x = w ∧ p = q ∧ y = [] := by
  rw [List.append_assoc] at h
  obtain ⟨a, rfl, ha⟩ | ⟨a, rfl, ha⟩ := List.append_eq_append_iff.mp h
  · have hlens := congrArg List.length ha
    simp only [List.length_append, List.length_cons] at hlens
    obtain rfl := List.length_eq_zero_iff.mp (by omega : a.length = 0)
    obtain rfl := List.length_eq_zero_iff.mp (by omega : y.length = 0)
    simpa using ha.symm
  · cases a with
    | nil =>
      have hlens := congrArg List.length ha
      simp only [List.length_append, List.length_cons, List.nil_append] at hlens
      obtain rfl := List.length_eq_zero_iff.mp (by omega : y.length = 0)
      simpa using ha
    | cons c a =>
      rw [List.cons_append, List.cons_append] at ha
      obtain ⟨rfl, htail⟩ := List.cons.inj ha
      obtain ⟨z, rfl⟩ := mark_infix_left hp htail
      exact absurd ⟨x, z, by simp⟩ hw

-- ---------------------------------------------------------------------------
-- Between brackets
-- ---------------------------------------------------------------------------

theorem closed_iff (hp : e ∉ p) (hq : e ∉ q) (hlen : p.length = q.length) (hne : p ≠ q)
    (body : List α) :
    (∀ x y, e :: p ++ body ++ e :: q = x ++ e :: q ++ y → y = []) ↔ ¬ e :: q <:+: body := by
  constructor
  · rintro h ⟨u, v, rfl⟩
    have hend := h (e :: p ++ u) (v ++ e :: q) (by simp)
    simp at hend
  · intro h x y heq
    have hfront : ¬ e :: q <:+: e :: p ++ body := by
      rw [List.cons_append, List.infix_cons_iff, mark_infix_append hp, List.cons_prefix_cons]
      rintro (⟨-, hstart⟩ | hin)
      · have hmark := List.prefix_of_prefix_length_le hstart (List.prefix_append p body) hlen.ge
        exact hne (hmark.eq_of_length hlen.symm).symm
      · exact h hin
    exact (mark_append_mark hq rfl hfront heq).2.2

theorem opened_iff (hp : e ∉ p) (hlen : p.length = q.length) (hne : p ≠ q) (body : List α) :
    (∀ x y, e :: p ++ body ++ e :: q = x ++ e :: p ++ y → x = []) ↔ ¬ e :: p <:+: body := by
  constructor
  · rintro h ⟨u, v, rfl⟩
    have hend := h (e :: p ++ u) (v ++ e :: q) (by simp)
    simp at hend
  · intro h x y heq
    cases x with
    | nil => rfl
    | cons c x =>
      obtain ⟨rfl, heq⟩ := List.cons.inj heq
      have hin : e :: p <:+: p ++ (body ++ e :: q) := ⟨x, y, by simpa using heq.symm⟩
      obtain ⟨u, v, huv⟩ := (mark_infix_append hp).mp hin
      exact absurd (mark_append_mark hp hlen h huv.symm).2.1 hne

variable [DecidableEq α]

/-- The first closing mark is the one behind the body. -/
theorem cut?_closed (hq : e ∉ q) {body : List α} (h : ¬ e :: q <:+: body) :
    cut? (e :: q) (body ++ e :: q) = some (body, e :: q) := by
  cases hcut : cut? (e :: q) (body ++ e :: q) with
  | none => exact absurd ⟨body, [], by simp⟩ (cut?_eq_none.mp hcut)
  | some parts =>
    obtain ⟨heq, y, hy⟩ := of_cut? hcut
    rw [← hy, ← List.append_assoc] at heq
    obtain ⟨hbody, -, rfl⟩ := mark_append_mark hq rfl h heq
    rw [← Prod.eta parts, ← hy, hbody, List.append_nil]

end Lib
