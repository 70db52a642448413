import Mathlib.Logic.Function.Basic

/-!
# Pairs on a grid

Cells in row-major order, some of which are the two halves of one thing that lie
side by side in a row. `Paired` says that no half is alone. A span of cells may
be rewritten when no pair is cut at its ends (`Open`), and `smash` is what clears
the ends of a span.
-/

namespace Lib

/-- Which cells are halves, and which two halves belong together. -/
structure Halves (α : Type) where
  lead : α → Bool
  tail : α → Bool
  same : α → α → Prop

namespace Halves

open Function

variable {α : Type} (H : Halves α) (cols : Nat)

structure Meets (a b : α) : Prop where
  pair : H.lead a = H.tail b
  same : H.lead a = true → H.same a b

/-- No pair is cut between `a` and `b`. -/
structure Apart (a b : α) : Prop where
  left : H.lead a = false
  right : H.tail b = false

/-- What holds between cell `i` and the next one. -/
def Seam (f : Nat → α) (i : Nat) : Prop :=
  if (i + 1) % cols = 0 then H.Apart (f i) (f (i + 1)) else H.Meets (f i) (f (i + 1))

def One (a : α) : Prop := H.lead a = true → H.tail a = false

structure Plain (a : α) : Prop where
  lead : H.lead a = false
  tail : H.tail a = false

structure Paired (f : Nat → α) : Prop where
  first : H.tail (f 0) = false
  seam : ∀ i, H.Seam cols f i
  one : ∀ i, H.One (f i)

/-- Paired outside `lo..hi`, with no pair cut at either end. -/
structure Open (lo hi : Nat) (f : Nat → α) : Prop where
  first : 0 < lo → H.tail (f 0) = false
  seam : ∀ i, i + 1 < lo ∨ hi ≤ i → H.Seam cols f i
  one : ∀ i, i < lo ∨ hi ≤ i → H.One (f i)
  left : ∀ i, i + 1 = lo → H.lead (f i) = false
  right : H.tail (f hi) = false

structure Block (lo hi : Nat) (f : Nat → α) : Prop where
  first : H.tail (f lo) = false
  seam : ∀ i, lo ≤ i → i + 1 < hi → H.Seam cols f i
  one : ∀ i, lo ≤ i → i < hi → H.One (f i)
  last : ∀ i, lo ≤ i → i + 1 = hi → H.lead (f i) = false

variable {H} {cols : Nat} {f g : Nat → α} {lo hi : Nat}

theorem Plain.one (h : H.Plain a) : H.One a := fun _ => h.tail

theorem Apart.seam (h : H.Apart (f i) (f (i + 1))) : H.Seam cols f i := by
  unfold Seam
  split
  case isTrue => exact h
  case isFalse => exact ⟨h.left.trans h.right.symm, fun hlead => by simp [h.left] at hlead⟩

theorem Seam.congr (h : H.Seam cols f i) (hi : g i = f i) (hnext : g (i + 1) = f (i + 1)) :
    H.Seam cols g i := by
  rwa [Seam, hi, hnext]

theorem Seam.apart (h : H.Seam cols f i) (hend : (i + 1) % cols = 0) :
    H.Apart (f i) (f (i + 1)) := by
  rwa [Seam, if_pos hend] at h

theorem Seam.meets (h : H.Seam cols f i) (hin : (i + 1) % cols ≠ 0) :
    H.Meets (f i) (f (i + 1)) := by
  rwa [Seam, if_neg hin] at h

theorem Seam.lead_eq (h : H.Seam cols f i) : H.lead (f i) = H.tail (f (i + 1)) := by
  unfold Seam at h
  split at h
  case isTrue => exact h.left.trans h.right.symm
  case isFalse => exact h.pair

theorem Meets.seam (h : H.Meets (f i) (f (i + 1))) (hin : (i + 1) % cols ≠ 0) :
    H.Seam cols f i := by
  rwa [Seam, if_neg hin]

-- ---------------------------------------------------------------------------
-- Spans
-- ---------------------------------------------------------------------------

theorem Block.of_plain (hlt : lo < hi) (h : ∀ i, lo ≤ i → i < hi → H.Plain (f i)) :
    H.Block cols lo hi f where
  first := (h lo (Nat.le_refl lo) hlt).tail
  seam i hlo hhi := Apart.seam ⟨(h i hlo (by omega)).lead, (h (i + 1) (by omega) hhi).tail⟩
  one i hlo hhi := (h i hlo hhi).one
  last i hlo hhi := (h i hlo (by omega)).lead

theorem Open.close (h : H.Open cols lo hi f) (hlt : lo < hi)
    (hout : ∀ i, i < lo ∨ hi ≤ i → g i = f i) (hin : H.Block cols lo hi g) :
    H.Paired cols g where
  first := by
    rcases Nat.eq_zero_or_pos lo with rfl | hpos
    · exact hin.first
    · rw [hout 0 (.inl hpos)]
      exact h.first hpos
  seam i := by
    rcases Nat.lt_trichotomy (i + 1) lo with hbefore | heq | hafter
    · exact (h.seam i (.inl hbefore)).congr (hout i (by omega)) (hout (i + 1) (by omega))
    · subst heq
      refine Apart.seam ⟨?_, hin.first⟩
      rw [hout i (by omega)]
      exact h.left i rfl
    · rcases Nat.lt_trichotomy (i + 1) hi with hinside | heq | hbeyond
      · exact hin.seam i (by omega) hinside
      · refine Apart.seam ⟨hin.last i (by omega) heq, ?_⟩
        rw [heq, hout hi (.inr (Nat.le_refl hi))]
        exact h.right
      · exact (h.seam i (by omega)).congr (hout i (by omega)) (hout (i + 1) (by omega))
  one i := by
    by_cases hi' : i < lo ∨ hi ≤ i
    · rw [hout i hi']
      exact h.one i hi'
    · exact hin.one i (by omega) (by omega)

theorem Open.single (h : H.Open cols lo (lo + 1) f) (ha : H.Plain a) :
    H.Paired cols (update f lo a) := by
  refine h.close (Nat.lt_succ_self lo) (fun i hi => update_of_ne (by omega) _ _)
    (.of_plain (Nat.lt_succ_self lo) fun i hlo hhi => ?_)
  obtain rfl : i = lo := by omega
  rwa [update_self]

theorem Open.pair (h : H.Open cols lo (lo + 2) f) (hin : (lo + 1) % cols ≠ 0)
    (hlead : H.lead a = true ∧ H.tail a = false) (htail : H.lead b = false ∧ H.tail b = true)
    (hsame : H.same a b) : H.Paired cols (update (update f lo a) (lo + 1) b) := by
  have hfirst : update (update f lo a) (lo + 1) b lo = a := by
    rw [update_of_ne (by omega), update_self]
  have hsecond : update (update f lo a) (lo + 1) b (lo + 1) = b := update_self ..
  refine h.close (by omega) (fun i hi => ?_) ?_
  · rw [update_of_ne (by omega), update_of_ne (by omega)]
  · exact {
      first := by
        rw [hfirst]
        exact hlead.2
      seam := fun i hlo hhi => by
        obtain rfl : i = lo := by omega
        refine Meets.seam ?_ hin
        rw [hfirst, hsecond]
        exact ⟨hlead.1.trans htail.2.symm, fun _ => hsame⟩
      one := fun i hlo hhi => by
        rcases Nat.eq_or_lt_of_le hlo with rfl | hlt
        · rw [hfirst]
          exact fun _ => hlead.2
        · obtain rfl : i = lo + 1 := by omega
          rw [hsecond]
          exact fun hb => by simp [htail.1] at hb
      last := fun i hlo hhi => by
        obtain rfl : i = lo + 1 := by omega
        rw [hsecond]
        exact htail.1 }

/-- The span may start one cell earlier where no pair is cut there. -/
theorem Open.widen_left (h : H.Open cols (lo + 1) hi f) (hleft : H.tail (f lo) = false) :
    H.Open cols lo hi f where
  first _ := h.first (Nat.succ_pos lo)
  seam i hi' := h.seam i (by omega)
  one i hi' := h.one i (by omega)
  left i heq := by
    subst heq
    rw [(h.seam i (.inl (Nat.lt_succ_self _))).lead_eq, hleft]
  right := h.right

theorem Open.widen {hi' : Nat} (h : H.Open cols lo hi f) (hle : hi ≤ hi')
    (hright : H.tail (f hi') = false) : H.Open cols lo hi' f where
  first := h.first
  seam i hi'' := h.seam i (by omega)
  one i hi'' := h.one i (by omega)
  left := h.left
  right := hright

theorem Open.widen_row {stop : Nat} (h : H.Open cols lo hi f) (hle : hi ≤ stop)
    (hstop : stop % cols = 0) : H.Open cols lo stop f := by
  refine h.widen hle ?_
  rcases Nat.eq_or_lt_of_le hle with rfl | hlt
  · exact h.right
  · obtain ⟨i, rfl⟩ : ∃ i, stop = i + 1 := ⟨stop - 1, by omega⟩
    exact ((h.seam i (by omega)).apart hstop).right

namespace Paired

theorem open_of (h : H.Paired cols f) (hlo : H.tail (f lo) = false) (hhi : H.tail (f hi) = false) :
    H.Open cols lo hi f where
  first _ := h.first
  seam i _ := h.seam i
  one i _ := h.one i
  left i heq := by
    subst heq
    rw [(h.seam i).lead_eq, hlo]
  right := hhi

theorem row_start (h : H.Paired cols f) (hi : i % cols = 0) : H.tail (f i) = false := by
  cases i with
  | zero => exact h.first
  | succ i => exact ((h.seam i).apart hi).right

theorem row_end (h : H.Paired cols f) (hi : (i + 1) % cols = 0) : H.lead (f i) = false :=
  ((h.seam i).apart hi).left

theorem open_rows (h : H.Paired cols f) (hlo : lo % cols = 0) (hhi : hi % cols = 0) :
    H.Open cols lo hi f := h.open_of (h.row_start hlo) (h.row_start hhi)

end Paired

-- ---------------------------------------------------------------------------
-- Clearing the ends of a span
-- ---------------------------------------------------------------------------

/-- The other half of what is at `i` becomes `blank`. -/
def smash (H : Halves α) (cols : Nat) (blank : α) (f : Nat → α) (i : Nat) : Nat → α :=
  let g := if H.lead (f i) ∧ (i + 1) % cols ≠ 0 ∧ H.tail (f (i + 1)) then
      update f (i + 1) blank
    else f
  if H.tail (f i) ∧ i % cols ≠ 0 ∧ H.lead (g (i - 1)) then update g (i - 1) blank else g

variable {blank : α}

theorem tail_of_blanked {c : Prop} [Decidable c] (hblank : H.Plain blank)
    (h : H.tail ((if c then update f i blank else f) j) = true) : H.tail (f j) = true := by
  split at h
  case isTrue =>
    by_cases hj : j = i
    · subst hj
      rw [update_self, hblank.tail] at h
      cases h
    · rwa [update_of_ne hj] at h
  case isFalse => exact h

/-- A cell before `i` stays, unless it may be the left half of what is there. -/
theorem smash_before {j : Nat} (hj : j < i) (hlead : j + 1 = i → H.lead (f j) = false) :
    H.smash cols blank f i j = f j := by
  have hright : (if H.lead (f i) ∧ (i + 1) % cols ≠ 0 ∧ H.tail (f (i + 1)) then
      update f (i + 1) blank else f) j = f j := by
    split
    · exact update_of_ne (by omega) ..
    · rfl
  rw [smash]
  generalize (if H.lead (f i) ∧ (i + 1) % cols ≠ 0 ∧ H.tail (f (i + 1)) then
      update f (i + 1) blank else f) = g at hright ⊢
  split
  case isTrue hcut =>
    by_cases hnext : j = i - 1
    · subst hnext
      have hfound := hcut.2.2
      rw [hright, hlead (by omega)] at hfound
      cases hfound
    · rw [update_of_ne hnext, hright]
  case isFalse => exact hright

/-- With no left half before it, a cell that is smashed takes its right half along and nothing else. -/
theorem eq_of_smash_ne {j : Nat} (hleft : H.lead (f (i - 1)) = false)
    (h : H.smash cols blank f i j ≠ f j) : j = i + 1 ∧ H.lead (f i) = true := by
  have hbefore : (if H.lead (f i) ∧ (i + 1) % cols ≠ 0 ∧ H.tail (f (i + 1)) then
      update f (i + 1) blank else f) (i - 1) = f (i - 1) := by
    split
    · exact update_of_ne (by omega) ..
    · rfl
  rw [smash, hbefore, hleft, if_neg (by simp)] at h
  split at h
  case isTrue hcut =>
    by_cases hj : j = i + 1
    · exact ⟨hj, hcut.1⟩
    · rw [update_of_ne hj] at h
      exact absurd rfl h
  case isFalse => exact absurd rfl h

theorem smash_span_before {j lo : Nat} (hj : j < lo) (hlead : j + 1 = lo → H.lead (f j) = false)
    (n : Nat) : ((List.range' lo n).foldl (H.smash cols blank) f) j = f j := by
  induction n with
  | zero => rfl
  | succ n ih =>
    rw [List.range'_concat, List.foldl_append, List.foldl_cons, List.foldl_nil, smash_before]
    · exact ih
    · omega
    · intro hnext
      rw [ih]
      exact hlead (by omega)

theorem tail_of_smash (hblank : H.Plain blank) (h : H.tail (H.smash cols blank f i j) = true) :
    H.tail (f j) = true := tail_of_blanked hblank (tail_of_blanked hblank h)

/-- Where no pair is cut to the left, only the cell to the right can change. -/
theorem smash_of_right (htail : H.tail (f i) = false) :
    H.smash cols blank f i =
      if H.lead (f i) ∧ (i + 1) % cols ≠ 0 ∧ H.tail (f (i + 1)) then
        update f (i + 1) blank
      else f := by
  simp [smash, htail]

theorem Seam.blank_left (hblank : H.Plain blank) (h : H.Seam cols f i)
    (hlead : H.lead (f i) = false) : H.Seam cols (update f i blank) i := by
  refine Apart.seam ⟨?_, ?_⟩
  · rw [update_self]
    exact hblank.lead
  · rw [update_of_ne (by omega), ← h.lead_eq, hlead]

theorem Seam.blank_right (hblank : H.Plain blank) (h : H.Seam cols f i)
    (htail : H.tail (f (i + 1)) = false) : H.Seam cols (update f (i + 1) blank) i := by
  refine Apart.seam ⟨?_, ?_⟩
  · rw [update_of_ne (by omega), h.lead_eq, htail]
  · rw [update_self]
    exact hblank.tail

theorem Seam.update_of_ne (h : H.Seam cols f i) (hi : i ≠ j) (hnext : i + 1 ≠ j) :
    H.Seam cols (update f j blank) i :=
  h.congr (Function.update_of_ne hi ..) (Function.update_of_ne hnext ..)

theorem one_update (hblank : H.Plain blank) (h : H.One (f i)) : H.One (update f j blank i) := by
  by_cases hij : i = j
  · subst hij
    rw [update_self]
    exact hblank.one
  · rwa [Function.update_of_ne hij]

/-- One more cell of a span that is clear so far. -/
theorem Open.smash (hblank : H.Plain blank) (h : H.Open cols lo hi f) (hle : lo ≤ hi) :
    H.Open cols lo (hi + 1) (H.smash cols blank f hi) := by
  have hseam := h.seam hi (.inr (Nat.le_refl hi))
  rw [smash_of_right h.right]
  split
  case isTrue hcut =>
    -- the tail after the span goes with the lead inside it
    obtain ⟨hlead, hin, htail⟩ := hcut
    have hone := h.one (hi + 1) (by omega)
    have hnolead : H.lead (f (hi + 1)) = false := by
      cases hlead' : H.lead (f (hi + 1)) with
      | false => rfl
      | true => exact absurd htail (by simp [hone hlead'])
    exact {
      first := fun hpos => by
        rw [Function.update_of_ne (by omega)]
        exact h.first hpos
      seam := fun i hi' => by
        by_cases hnext : i = hi + 1
        · subst hnext
          exact (h.seam _ (by omega)).blank_left hblank hnolead
        · exact (h.seam i (by omega)).update_of_ne hnext (by omega)
      one := fun i hi' => one_update hblank (h.one i (by omega))
      left := fun i hi' => by
        rw [Function.update_of_ne (by omega)]
        exact h.left i hi'
      right := by
        rw [update_self]
        exact hblank.tail }
  case isFalse hcut =>
    refine h.widen (Nat.le_succ hi) ?_
    cases htail : H.tail (f (hi + 1)) with
    | false => rfl
    | true =>
      have hlead : H.lead (f hi) = true := hseam.lead_eq.trans htail
      by_cases hin : (hi + 1) % cols = 0
      · have hapart := hseam.apart hin
        rw [hapart.right] at htail
        cases htail
      · exact absurd ⟨hlead, hin, htail⟩ hcut

/-- The first cell of a span: what it cuts to its left goes too. -/
theorem Paired.smash (hblank : H.Plain blank) (h : H.Paired cols f) (lo : Nat) :
    H.Open cols lo (lo + 1) (H.smash cols blank f lo) := by
  cases htail : H.tail (f lo) with
  | false => exact (h.open_of htail htail).smash hblank (Nat.le_refl lo)
  | true =>
    have hin : lo % cols ≠ 0 := fun hstart => by simp [h.row_start hstart] at htail
    obtain ⟨k, rfl⟩ : ∃ k, lo = k + 1 := ⟨lo - 1, by
      rcases Nat.eq_zero_or_pos lo with rfl | hpos
      · simp at hin
      · omega⟩
    have hlead : H.lead (f k) = true := (h.seam k).lead_eq.trans htail
    have hnolead : H.lead (f (k + 1)) = false := by
      cases hlead' : H.lead (f (k + 1)) with
      | false => rfl
      | true => exact absurd htail (by simp [h.one _ hlead'])
    have hsmash : H.smash cols blank f (k + 1) = update f k blank := by
      simp [Halves.smash, htail, hin, hlead, hnolead]
    rw [hsmash]
    exact {
      first := fun _ => by
        by_cases hk : 0 = k
        · rw [← hk, update_self]
          exact hblank.tail
        · rw [Function.update_of_ne hk]
          exact h.first
      seam := fun i hi => by
        by_cases hnext : i + 1 = k
        · subst hnext
          exact (h.seam i).blank_right hblank (h.one _ hlead)
        · exact (h.seam i).update_of_ne (by omega) hnext
      one := fun i _ => one_update hblank (h.one i)
      left := fun i hi => by
        obtain rfl : i = k := by omega
        rw [update_self]
        exact hblank.lead
      right := by
        rw [Function.update_of_ne (by omega), ← (h.seam (k + 1)).lead_eq, hnolead] }

/-- A span is open once each of its cells has been smashed, from the left. -/
theorem Paired.smash_span (hblank : H.Plain blank) (h : H.Paired cols f) (lo n : Nat) :
    H.Open cols lo (lo + (n + 1))
      ((List.range' lo (n + 1)).foldl (H.smash cols blank) f) := by
  induction n with
  | zero => exact h.smash hblank lo
  | succ n ih =>
    rw [List.range'_concat, List.foldl_append, Nat.one_mul]
    exact ih.smash hblank (Nat.le_add_right lo (n + 1))

-- ---------------------------------------------------------------------------
-- Edits
-- ---------------------------------------------------------------------------

/-- Cells are taken out of a row: the rest of it moves left. -/
theorem Open.delete {n : Nat} (stop : Nat) (h : H.Open cols lo (lo + n) f) (hn : 0 < n)
    (hle : lo + n ≤ stop) (hstop : stop % cols = 0)
    (hrow : ∀ i, lo ≤ i → i + 1 < stop → (i + 1) % cols ≠ 0)
    (hmoved : ∀ i, lo ≤ i → i + n < stop → g i = f (i + n))
    (hfree : ∀ i, lo ≤ i → i < stop → stop ≤ i + n → H.Plain (g i))
    (hout : ∀ i, i < lo ∨ stop ≤ i → g i = f i) : H.Paired cols g := by
  refine (h.widen_row hle hstop).close (by omega) hout ?_
  exact {
    first := by
      by_cases hlt : lo + n < stop
      · rw [hmoved lo (Nat.le_refl lo) hlt]
        exact h.right
      · exact (hfree lo (Nat.le_refl lo) (by omega) (by omega)).tail
    seam := fun i hlo hhi => by
      have hin := hrow i hlo hhi
      by_cases hfirst : i + n < stop
      · have hseam := h.seam (i + n) (by omega)
        have hnext : i + n + 1 = i + 1 + n := by omega
        by_cases hsecond : i + 1 + n < stop
        · refine Meets.seam ?_ hin
          rw [hmoved i hlo hfirst, hmoved (i + 1) (by omega) hsecond, ← hnext]
          exact hseam.meets (hrow (i + n) (by omega) (by omega))
        · refine Apart.seam ⟨?_, (hfree (i + 1) (by omega) hhi (by omega)).tail⟩
          rw [hmoved i hlo hfirst]
          exact (hseam.apart (by rwa [show i + n + 1 = stop by omega])).left
      · exact Apart.seam ⟨(hfree i hlo (by omega) (by omega)).lead,
          (hfree (i + 1) (by omega) hhi (by omega)).tail⟩
    one := fun i hlo hhi => by
      by_cases hmove : i + n < stop
      · rw [hmoved i hlo hmove]
        exact h.one (i + n) (by omega)
      · exact (hfree i hlo hhi (by omega)).one
    last := fun i hlo hhi => (hfree i hlo (by omega) (by omega)).lead }

/-- Room is made in a row: the rest of it moves right, and what passes the end is
lost. No pair may straddle either place. -/
theorem Paired.insert {n : Nat} (stop : Nat) (h : H.Paired cols f) (hn : 0 < n) (hlt : lo < stop)
    (hstop : stop % cols = 0) (hrow : ∀ i, lo ≤ i → i + 1 < stop → (i + 1) % cols ≠ 0)
    (hcut : H.tail (f lo) = false) (hlost : ∀ i, lo ≤ i → i + n + 1 = stop → H.lead (f i) = false)
    (hmoved : ∀ i, lo ≤ i → i + n < stop → g (i + n) = f i)
    (hfree : ∀ i, lo ≤ i → i < lo + n → i < stop → H.Plain (g i))
    (hout : ∀ i, i < lo ∨ stop ≤ i → g i = f i) : H.Paired cols g := by
  refine (h.open_of hcut (h.row_start hstop)).close hlt hout ?_
  exact {
    first := (hfree lo (Nat.le_refl lo) (by omega) hlt).tail
    seam := fun i hlo hhi => by
      have hin := hrow i hlo hhi
      by_cases hfirst : i < lo + n
      · by_cases hsecond : i + 1 < lo + n
        · exact Apart.seam ⟨(hfree i hlo hfirst (by omega)).lead,
            (hfree (i + 1) (by omega) hsecond hhi).tail⟩
        · refine Apart.seam ⟨(hfree i hlo hfirst (by omega)).lead, ?_⟩
          rw [show i + 1 = lo + n by omega, hmoved lo (Nat.le_refl lo) (by omega)]
          exact hcut
      · obtain ⟨k, rfl⟩ : ∃ k, i = k + n := ⟨i - n, by omega⟩
        refine Meets.seam ?_ hin
        rw [hmoved k (by omega) (by omega), show k + n + 1 = k + 1 + n by omega,
          hmoved (k + 1) (by omega) (by omega)]
        exact (h.seam k).meets (hrow k (by omega) (by omega))
    one := fun i hlo hhi => by
      by_cases hfirst : i < lo + n
      · exact (hfree i hlo hfirst hhi).one
      · obtain ⟨k, rfl⟩ : ∃ k, i = k + n := ⟨i - n, by omega⟩
        rw [hmoved k (by omega) hhi]
        exact h.one k
    last := fun i hlo hhi => by
      by_cases hfirst : i < lo + n
      · exact (hfree i hlo hfirst (by omega)).lead
      · obtain ⟨k, rfl⟩ : ∃ k, i = k + n := ⟨i - n, by omega⟩
        rw [hmoved k (by omega) (by omega)]
        exact hlost k (by omega) hhi }

/-- Whole rows may be copied over others. -/
theorem Paired.copy (src dst n : Nat) (h : H.Paired cols f) (hn : 0 < n) (hsrc : src % cols = 0)
    (hdst : dst % cols = 0) (hlen : n % cols = 0)
    (hmoved : ∀ i, i < n → g (dst + i) = f (src + i))
    (hout : ∀ i, i < dst ∨ dst + n ≤ i → g i = f i) : H.Paired cols g := by
  have hrow : ∀ i base, base % cols = 0 → (base + i) % cols = i % cols := fun i base hbase => by
    rw [Nat.add_mod, hbase, Nat.zero_add, Nat.mod_mod]
  refine (h.open_rows hdst ((hrow n dst hdst).trans hlen)).close (by omega) hout ?_
  have hsame : ∀ i, dst ≤ i → i < dst + n → ∃ k, i = dst + k ∧ g i = f (src + k) := fun i hlo hhi =>
    ⟨i - dst, by omega, by rw [← hmoved (i - dst) (by omega), show dst + (i - dst) = i by omega]⟩
  exact {
    first := by
      obtain ⟨k, hk, hg⟩ := hsame dst (Nat.le_refl dst) (by omega)
      rw [hg, show k = 0 by omega]
      exact h.row_start hsrc
    seam := fun i hlo hhi => by
      obtain ⟨k, rfl⟩ : ∃ k, i = dst + k := ⟨i - dst, by omega⟩
      have hseam := h.seam (src + k)
      unfold Seam at hseam ⊢
      rw [Nat.add_assoc, hrow (k + 1) dst hdst, hmoved k (by omega), hmoved (k + 1) (by omega)]
      rwa [Nat.add_assoc, hrow (k + 1) src hsrc] at hseam
    one := fun i hlo hhi => by
      obtain ⟨k, -, hg⟩ := hsame i hlo hhi
      rw [hg]
      exact h.one _
    last := fun i hlo hhi => by
      obtain ⟨k, hk, hg⟩ := hsame i hlo (by omega)
      rw [hg]
      refine h.row_end ?_
      rw [Nat.add_assoc, hrow (k + 1) src hsrc, show k + 1 = n by omega, hlen] }

/-- The same rows at another width, cut or filled up on the right: no pair may
straddle the cut. -/
theorem Paired.reshape {cols' : Nat} (rows : Nat) (h : H.Paired cols f) (hpos : 0 < cols')
    (hin : ∀ r c, r < rows → c < cols → c < cols' → g (r * cols' + c) = f (r * cols + c))
    (hout : ∀ r c, c < cols' → rows ≤ r ∨ cols ≤ c → H.Plain (g (r * cols' + c)))
    (hcut : ∀ r c, r < rows → c + 1 = cols' → cols' < cols → H.lead (f (r * cols + c)) = false) :
    H.Paired cols' g := by
  have hplace : ∀ i, ∃ r c, c < cols' ∧ i = r * cols' + c := fun i =>
    ⟨i / cols', i % cols', Nat.mod_lt i hpos, (Nat.div_add_mod' i cols').symm⟩
  have hstart : ∀ r, H.tail (g (r * cols')) = false := by
    intro r
    by_cases hr : r < rows ∧ 0 < cols
    · have hg := hin r 0 hr.1 hr.2 hpos
      rw [Nat.add_zero] at hg
      rw [hg]
      exact h.row_start (Nat.mul_mod_left r cols)
    · have hg := hout r 0 hpos (by omega)
      rw [Nat.add_zero] at hg
      exact hg.tail
  exact {
    first := by
      have hzero := hstart 0
      rwa [Nat.zero_mul] at hzero
    one := fun i => by
      obtain ⟨r, c, hc, rfl⟩ := hplace i
      by_cases hr : r < rows ∧ c < cols
      · rw [hin r c hr.1 hr.2 hc]
        exact h.one _
      · exact (hout r c hc (by omega)).one
    seam := fun i => by
      obtain ⟨r, c, hc, rfl⟩ := hplace i
      by_cases hend : c + 1 = cols'
      · -- the last cell of a row and the first of the next
        have hnext : r * cols' + c + 1 = (r + 1) * cols' := by
          rw [Nat.succ_mul]
          omega
        refine Apart.seam ⟨?_, by rw [hnext]; exact hstart (r + 1)⟩
        by_cases hr : r < rows ∧ c < cols
        · rw [hin r c hr.1 hr.2 hc]
          rcases Nat.lt_or_ge cols' cols with hlt | hge
          · exact hcut r c hr.1 hend hlt
          · refine h.row_end ?_
            rw [Nat.add_assoc, show c + 1 = cols by omega, Nat.mul_add_mod_self_right, Nat.mod_self]
        · exact (hout r c hc (by omega)).lead
      · have hc' : c + 1 < cols' := by omega
        have hmod : ∀ n k : Nat, k < n → 0 < k → (r * n + k) % n ≠ 0 := fun n k hk hk' => by
          rw [Nat.mul_add_mod_self_right, Nat.mod_eq_of_lt hk]
          omega
        by_cases hr : r < rows ∧ c < cols
        · have hseam := h.seam (r * cols + c)
          by_cases hsecond : c + 1 < cols
          · refine Meets.seam ?_ (by rw [Nat.add_assoc]; exact hmod cols' (c + 1) hc' (by omega))
            rw [hin r c hr.1 hr.2 hc, Nat.add_assoc, hin r (c + 1) hr.1 hsecond hc']
            exact hseam.meets (by rw [Nat.add_assoc]; exact hmod cols (c + 1) hsecond (by omega))
          · refine Apart.seam ⟨?_, ?_⟩
            · rw [hin r c hr.1 hr.2 hc]
              refine h.row_end ?_
              rw [Nat.add_assoc, show c + 1 = cols by omega, Nat.mul_add_mod_self_right,
                Nat.mod_self]
            · rw [Nat.add_assoc]
              exact (hout r (c + 1) hc' (by omega)).tail
        · refine Apart.seam ⟨(hout r c hc (by omega)).lead, ?_⟩
          rw [Nat.add_assoc]
          exact (hout r (c + 1) hc' (by omega)).tail }

end Halves

end Lib
