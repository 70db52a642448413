import Mathlib.Data.List.Basic

/-!
# Segments

Operations on a run of consecutive entries of a list, the others staying as they
are: what shifting copies of an entry in at one end leaves, and what it drives out.
-/

namespace Lib

variable {α : Type}

/-- `f` on the `n` entries from `lo` on. -/
def onSegment (lo n : Nat) (f : List α → List α) (l : List α) : List α :=
  l.take lo ++ (f ((l.drop lo).take n) ++ l.drop (lo + n))

/-- The first `n` entries go, and as many `a` come at the end. -/
def shiftLeft (n : Nat) (a : α) (l : List α) : List α := l.drop n ++ List.replicate (min n l.length) a

/-- The last `n` entries go, and as many `a` come at the front. -/
def shiftRight (n : Nat) (a : α) (l : List α) : List α :=
  List.replicate (min n l.length) a ++ l.take (l.length - n)

/-- What shifting `n` times `a` in at the end drives out at the front: entries of
the list, and copies of `a` when there are no more. -/
def driven (n : Nat) (a : α) (l : List α) : List α := (l ++ List.replicate n a).take n

variable {lo n i : Nat} {a : α} {l : List α} {f g : List α → List α}

-- ---------------------------------------------------------------------------
-- Entries
-- ---------------------------------------------------------------------------

theorem getElem?_take_append {k : Nat} (hk : k ≤ l.length) (rest : List α) (i : Nat) :
    (l.take k ++ rest)[i]? = if i < k then l[i]? else rest[i - k]? := by
  have hlen := List.length_take_of_le hk
  split
  case isTrue h => rw [List.getElem?_append_left (by omega), List.getElem?_take_of_lt h]
  case isFalse h => rw [List.getElem?_append_right (by omega), hlen]

theorem getElem?_replicate_append (n : Nat) (a : α) (rest : List α) (i : Nat) :
    (List.replicate n a ++ rest)[i]? = if i < n then some a else rest[i - n]? := by
  have hlen := List.length_replicate (n := n) (a := a)
  split
  case isTrue h => rw [List.getElem?_append_left (by omega), List.getElem?_replicate_of_lt h]
  case isFalse h => rw [List.getElem?_append_right (by omega), hlen]

theorem length_segment (h : lo + n ≤ l.length) : ((l.drop lo).take n).length = n := by
  rw [List.length_take, List.length_drop]
  omega

theorem getElem?_onSegment (h : lo + n ≤ l.length) (hf : ∀ seg : List α, (f seg).length = seg.length) :
    (onSegment lo n f l)[i]? =
      if lo ≤ i ∧ i < lo + n then (f ((l.drop lo).take n))[i - lo]? else l[i]? := by
  have hseg : (f ((l.drop lo).take n)).length = n := (hf _).trans (length_segment h)
  rw [onSegment, getElem?_take_append (by omega)]
  by_cases hlo : i < lo
  · rw [if_pos hlo, if_neg (by omega)]
  · rw [if_neg hlo]
    by_cases hhi : i < lo + n
    · rw [if_pos (by omega), List.getElem?_append_left (by omega)]
    · rw [if_neg (by omega), List.getElem?_append_right (by omega), List.getElem?_drop, hseg]
      exact congrArg (l[·]?) (by omega)

theorem length_shiftLeft (n : Nat) (a : α) (l : List α) : (shiftLeft n a l).length = l.length := by
  rw [shiftLeft, List.length_append, List.length_drop, List.length_replicate]
  omega

theorem length_shiftRight (n : Nat) (a : α) (l : List α) : (shiftRight n a l).length = l.length := by
  rw [shiftRight, List.length_append, List.length_take, List.length_replicate]
  omega

theorem getElem?_shiftLeft (hi : i < l.length) :
    (shiftLeft n a l)[i]? = if i + n < l.length then l[i + n]? else some a := by
  rw [shiftLeft]
  by_cases h : i + n < l.length
  · rw [if_pos h, List.getElem?_append_left (by rw [List.length_drop]; omega), List.getElem?_drop,
      Nat.add_comm]
  · rw [if_neg h, List.getElem?_append_right (by rw [List.length_drop]; omega), List.length_drop]
    exact List.getElem?_replicate_of_lt (by omega)

theorem getElem?_shiftRight (hi : i < l.length) :
    (shiftRight n a l)[i]? = if i < n then some a else l[i - n]? := by
  rw [shiftRight, getElem?_replicate_append]
  by_cases h : i < n
  · rw [if_pos h, if_pos (by omega)]
  · rw [if_neg h, if_neg (by omega), Nat.min_eq_left (by omega), List.getElem?_take_of_lt (by omega)]

theorem onSegment_all (f : List α → List α) (l : List α) : onSegment 0 l.length f l = f l := by
  rw [onSegment, List.take_zero, List.drop_zero, List.take_length, List.nil_append, Nat.zero_add,
    List.drop_length, List.append_nil]

-- ---------------------------------------------------------------------------
-- Repeated shifts
-- ---------------------------------------------------------------------------

theorem onSegment_onSegment (h : lo + n ≤ l.length) (hf : ∀ seg : List α, (f seg).length = seg.length) :
    onSegment lo n g (onSegment lo n f l) = onSegment lo n (fun seg => g (f seg)) l := by
  have htake : (l.take lo).length = lo := List.length_take_of_le (by omega)
  have hseg : (f ((l.drop lo).take n)).length = n := (hf _).trans (length_segment h)
  have hfirst : (onSegment lo n f l).take lo = l.take lo := List.take_left' htake
  have hrest : (onSegment lo n f l).drop lo = f ((l.drop lo).take n) ++ l.drop (lo + n) :=
    List.drop_left' htake
  rw [onSegment, hfirst, ← List.drop_drop, hrest, List.take_left' hseg, List.drop_left' hseg]
  rfl

theorem shiftLeft_zero (a : α) (l : List α) : shiftLeft 0 a l = l := by
  rw [shiftLeft, Nat.zero_min, List.replicate_zero, List.append_nil, List.drop_zero]

theorem shiftRight_zero (a : α) (l : List α) : shiftRight 0 a l = l := by
  rw [shiftRight, Nat.zero_min, List.replicate_zero, List.nil_append, Nat.sub_zero, List.take_length]

theorem onSegment_shiftLeft_min (h : lo + i ≤ l.length) :
    onSegment lo i (shiftLeft (min n i) a) l = onSegment lo i (shiftLeft n a) l := by
  refine congrArg (fun seg => l.take lo ++ (seg ++ l.drop (lo + i))) ?_
  have hseg := length_segment h
  rw [shiftLeft, shiftLeft, hseg, Nat.min_assoc, Nat.min_self]
  refine congrArg (· ++ List.replicate (min n i) a) ?_
  obtain hle | hle := Nat.le_total n i
  · rw [Nat.min_eq_left hle]
  · rw [Nat.min_eq_right hle, List.drop_eq_nil_of_le (by omega), List.drop_eq_nil_of_le (by omega)]

theorem onSegment_shiftRight_min (h : lo + i ≤ l.length) :
    onSegment lo i (shiftRight (min n i) a) l = onSegment lo i (shiftRight n a) l := by
  refine congrArg (fun seg => l.take lo ++ (seg ++ l.drop (lo + i))) ?_
  rw [shiftRight, shiftRight, length_segment h, Nat.min_assoc, Nat.min_self,
    show i - min n i = i - n by omega]

theorem shiftLeft_succ (n : Nat) (a : α) (l : List α) :
    shiftLeft 1 a (shiftLeft n a l) = shiftLeft (n + 1) a l := by
  refine List.ext_getElem? fun i => ?_
  by_cases hi : i < l.length
  · have hlen := length_shiftLeft n a l
    rw [getElem?_shiftLeft hi, getElem?_shiftLeft (by omega), hlen]
    by_cases h1 : i + 1 < l.length
    · rw [if_pos h1, getElem?_shiftLeft h1, Nat.add_assoc, Nat.add_comm 1 n]
    · rw [if_neg h1, if_neg (by omega)]
  · rw [List.getElem?_eq_none (by rw [length_shiftLeft, length_shiftLeft]; omega),
      List.getElem?_eq_none (by rw [length_shiftLeft]; omega)]

theorem shiftRight_succ (n : Nat) (a : α) (l : List α) :
    shiftRight 1 a (shiftRight n a l) = shiftRight (n + 1) a l := by
  refine List.ext_getElem? fun i => ?_
  by_cases hi : i < l.length
  · have hlen := length_shiftRight n a l
    rw [getElem?_shiftRight hi, getElem?_shiftRight (by omega)]
    by_cases h1 : i < 1
    · rw [if_pos h1, if_pos (by omega)]
    · rw [if_neg h1, getElem?_shiftRight (by omega)]
      by_cases hn : i - 1 < n
      · rw [if_pos hn, if_pos (by omega)]
      · rw [if_neg hn, if_neg (by omega)]
        exact congrArg (l[·]?) (by omega)
  · rw [List.getElem?_eq_none (by rw [length_shiftRight, length_shiftRight]; omega),
      List.getElem?_eq_none (by rw [length_shiftRight]; omega)]

-- ---------------------------------------------------------------------------
-- Shifts that change nothing
-- ---------------------------------------------------------------------------

theorem onSegment_eq_self_iff (hf : ∀ seg : List α, (f seg).length = seg.length) :
    onSegment lo n f l = l ↔ f ((l.drop lo).take n) = (l.drop lo).take n := by
  have hsplit : l = l.take lo ++ ((l.drop lo).take n ++ l.drop (lo + n)) := by
    rw [← List.drop_drop, List.take_append_drop, List.take_append_drop]
  refine ⟨fun heq => ?_, fun heq => ?_⟩
  · rw [onSegment] at heq
    have hrest := List.append_cancel_left (heq.trans hsplit)
    exact List.append_inj_left hrest (hf _)
  · rw [onSegment, heq, ← hsplit]

theorem shiftLeft_eq_self_iff (a : α) (l : List α) : shiftLeft 1 a l = l ↔ ∀ x ∈ l, x = a := by
  induction l with
  | nil => exact ⟨fun _ _ h => absurd h List.not_mem_nil, fun _ => rfl⟩
  | cons x l ih =>
    have hshift : ∀ y (l : List α), shiftLeft 1 a (y :: l) = l ++ [a] := by
      intro y l
      rw [shiftLeft, List.length_cons, Nat.min_eq_left (by omega)]
      rfl
    rw [hshift, List.forall_mem_cons]
    cases l with
    | nil => exact ⟨fun h => ⟨(List.cons.inj h).1.symm, fun _ h => absurd h List.not_mem_nil⟩,
        fun h => congrArg (· :: []) h.1.symm⟩
    | cons y l =>
      rw [hshift] at ih
      rw [List.cons_append, List.cons.injEq, ih, List.forall_mem_cons]
      refine ⟨fun h => ⟨h.1.symm.trans h.2.1, h.2⟩, fun h => ⟨h.2.1.trans h.1.symm, h.2⟩⟩

theorem shiftRight_eq_self_iff (a : α) (l : List α) : shiftRight 1 a l = l ↔ ∀ x ∈ l, x = a := by
  refine ⟨fun h => ?_, fun h => ?_⟩
  · have hall : ∀ i < l.length, l[i]? = some a := by
      intro i
      induction i with
      | zero =>
        intro hi
        rw [← h, getElem?_shiftRight hi]
        rfl
      | succ i ih =>
        intro hi
        rw [← h, getElem?_shiftRight hi, if_neg (by omega)]
        exact ih (by omega)
    intro x hx
    obtain ⟨i, hi, rfl⟩ := List.getElem_of_mem hx
    exact Option.some.inj ((List.getElem?_eq_getElem hi).symm.trans (hall i hi))
  · refine List.ext_getElem? fun i => ?_
    have hsome : ∀ j < l.length, l[j]? = some a := fun j hj => by
      rw [List.getElem?_eq_getElem hj, h _ (List.getElem_mem hj)]
    by_cases hi : i < l.length
    · rw [getElem?_shiftRight hi, hsome i hi]
      split
      · rfl
      · exact hsome _ (by omega)
    · rw [List.getElem?_eq_none (by rw [length_shiftRight]; omega), List.getElem?_eq_none (by omega)]

/-- The next entry driven out is the first of what is left. -/
theorem driven_succ (n : Nat) (a : α) (hl : l ≠ []) :
    driven (n + 1) a l = driven n a l ++ (shiftLeft n a l).take 1 := by
  have hlen : 0 < l.length := List.length_pos_iff.mpr hl
  have hsame : ∀ m, n ≤ m → (l ++ List.replicate m a).take n = driven n a l := by
    intro m hm
    rw [driven, List.take_append, List.take_append, List.take_replicate, List.take_replicate]
    exact congrArg (fun k => l.take n ++ List.replicate k a) (by omega)
  have hhead : (shiftLeft n a l).take 1 = ((l ++ List.replicate (n + 1) a).drop n).take 1 := by
    rw [shiftLeft, List.drop_append, List.take_append, List.take_append, List.drop_replicate,
      List.take_replicate, List.take_replicate]
    refine congrArg (fun k => (l.drop n).take 1 ++ List.replicate k a) ?_
    rw [List.length_drop]
    omega
  rw [driven, List.take_add, hsame _ (Nat.le_succ n), hhead]

end Lib
