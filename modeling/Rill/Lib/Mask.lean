import Mathlib.Data.List.Basic
import Mathlib.Data.List.SplitBy

/-!
# Masking words

Patterns are masked one after the other: each the first time it occurs, from
there to the next stop. A pattern that lies in one word is so used up by the
first word that has it, and what the words after it need must be left for them.
-/

namespace Lib

variable {α : Type}

section
variable [DecidableEq α]

/-- What stands before the first `p`, and what begins with it. -/
def cut? (p : List α) : List α → Option (List α × List α)
  | [] => if p = [] then some ([], []) else none
  | c :: cs =>
    if p.isPrefixOf (c :: cs) then some ([], c :: cs)
    else (cut? p cs).map fun parts => (c :: parts.1, parts.2)

def occurs (p l : List α) : Bool := (cut? p l).isSome

variable {p l a b : List α}

theorem of_cut? (h : cut? p l = some (a, b)) : l = a ++ b ∧ p <+: b := by
  induction l generalizing a with
  | nil =>
    rw [cut?] at h
    split at h
    case isTrue hp => cases h; exact ⟨rfl, hp ▸ List.nil_prefix⟩
    case isFalse => cases h
  | cons c cs ih =>
    rw [cut?] at h
    split at h
    case isTrue hp => cases h; exact ⟨rfl, List.isPrefixOf_iff_prefix.mp hp⟩
    case isFalse =>
      obtain ⟨⟨a', b'⟩, hcut, hparts⟩ := Option.map_eq_some_iff.mp h
      cases hparts
      obtain ⟨rfl, hb⟩ := ih hcut
      exact ⟨rfl, hb⟩

theorem occurs_iff : occurs p l = true ↔ p <:+: l := by
  induction l with
  | nil =>
    rw [occurs, cut?, List.infix_nil]
    split
    case isTrue hp => simp [hp]
    case isFalse hp => simp [hp]
  | cons c cs ih =>
    rw [List.infix_cons_iff, occurs, cut?]
    split
    case isTrue hp => simp [List.isPrefixOf_iff_prefix.mp hp]
    case isFalse hp =>
      rw [List.isPrefixOf_iff_prefix] at hp
      rw [Option.isSome_map, or_iff_right hp]
      exact ih

theorem cut?_eq_none : cut? p l = none ↔ ¬ p <:+: l := by
  rw [← occurs_iff, occurs, Option.not_isSome_iff_eq_none]

/-- What is appended does not change where the first `p` is. -/
theorem cut?_append (h : cut? p l = some (a, b)) (m : List α) : cut? p (l ++ m) = some (a, b ++ m) := by
  induction l generalizing a with
  | nil =>
    rw [cut?] at h
    split at h
    case isTrue hp =>
      cases h
      subst hp
      cases m <;> rfl
    case isFalse => cases h
  | cons c cs ih =>
    have hl := of_cut? h
    rw [cut?] at h
    rw [List.cons_append, cut?]
    split at h
    case isTrue hp =>
      cases h
      have hp' : p.isPrefixOf (c :: (cs ++ m)) = true := List.isPrefixOf_iff_prefix.mpr
        ((List.isPrefixOf_iff_prefix.mp hp).trans (List.prefix_append (c :: cs) m))
      rw [if_pos hp']
      rfl
    case isFalse hp =>
      obtain ⟨⟨a', b'⟩, hcut, hparts⟩ := Option.map_eq_some_iff.mp h
      cases hparts
      obtain ⟨hcs, rest, rfl⟩ := of_cut? hcut
      have hp' : ¬ p.isPrefixOf (c :: (cs ++ m)) = true := fun hstart => by
        have hlen : p.length ≤ (c :: cs).length := by
          rw [hcs, List.length_cons, List.length_append, List.length_append]
          omega
        exact hp (List.isPrefixOf_iff_prefix.mpr (List.prefix_of_prefix_length_le
          (List.isPrefixOf_iff_prefix.mp hstart) (List.prefix_append (c :: cs) m) hlen))
      rw [if_neg hp', ih hcut]
      rfl

theorem cut?_append_singleton {e : α} (h : e ∉ l) (m : List α) : cut? [e] (l ++ e :: m) = some (l, e :: m) := by
  induction l with
  | nil => simp [cut?]
  | cons c l ih =>
    obtain ⟨hc, hl⟩ := not_or.mp (List.mem_cons.not.mp h)
    rw [List.cons_append, cut?, ih hl]
    simp [hc]

theorem cut?_append_pair {e f : α} (hne : e ≠ f) (h : ¬ [e, f] <:+: l) (m : List α) :
    cut? [e, f] (l ++ e :: f :: m) = some (l, e :: f :: m) := by
  induction l with
  | nil => simp [cut?]
  | cons c l ih =>
    rw [List.infix_cons_iff, not_or] at h
    have hstart : ¬ [e, f].isPrefixOf (c :: (l ++ e :: f :: m)) = true := by
      rw [List.isPrefixOf_iff_prefix, List.cons_prefix_cons]
      rintro ⟨rfl, hf⟩
      cases l with
      | nil => exact hne (List.cons_prefix_cons.mp hf).1.symm
      | cons d l =>
        obtain ⟨rfl, -⟩ := List.cons_prefix_cons.mp hf
        exact h.1 ⟨l, rfl⟩
    rw [List.cons_append, cut?, if_neg hstart, ih h.2]
    rfl

end

/-- `r` does not go on with what is in `p`. -/
def Apart (p r : List α) : Prop := ∀ c ∈ r.head?, c ∉ p

section
variable {p q r : List α}

/-- An occurrence lies on one side of a place behind which nothing goes on with it. -/
theorem infix_append_apart (h : Apart q r) (w : List α) : q <:+: w ++ r ↔ q <:+: w ∨ q <:+: r := by
  rw [List.infix_append_iff_ne_nil]
  constructor
  · rintro (hw | hr | ⟨l₁, l₂, -, hne, rfl, -, ⟨back, rfl⟩⟩)
    · exact .inl hw
    · exact .inr hr
    · have hhead : l₂.head hne ∈ (l₂ ++ back).head? := by
        rw [List.head?_append_of_ne_nil _ hne, List.head?_eq_some_head hne]
        rfl
      exact absurd (List.mem_append_right l₁ (List.head_mem hne)) (h _ hhead)
  · rintro (hw | hr)
    · exact .inl hw
    · exact .inr (.inl hr)

/-- What is not in the pattern parts its occurrences. -/
theorem infix_append_cons {c : α} (hne : q ≠ []) (hc : c ∉ q) (w : List α) :
    q <:+: w ++ c :: r ↔ q <:+: w ∨ q <:+: r := by
  have hapart : Apart q (c :: r) := by
    rintro _ ⟨rfl⟩
    exact hc
  have hprefix : ¬ q <+: c :: r := by
    obtain ⟨d, q, rfl⟩ := List.exists_cons_of_ne_nil hne
    intro h
    obtain rfl := (List.cons_prefix_cons.mp h).1
    exact hc List.mem_cons_self
  rw [infix_append_apart hapart, List.infix_cons_iff, or_iff_right hprefix]

theorem prefix_append_apart (h : Apart p r) (w : List α) : p <+: w ++ r ↔ p <+: w := by
  refine ⟨fun hprefix => ?_, fun hprefix => hprefix.trans (List.prefix_append w r)⟩
  induction p generalizing w with
  | nil => exact List.nil_prefix
  | cons c p ih =>
    cases w with
    | nil =>
      obtain ⟨rest, rfl⟩ := hprefix
      exact absurd List.mem_cons_self (h c rfl)
    | cons d w =>
      obtain ⟨rfl, hrest⟩ := List.cons_prefix_cons.mp hprefix
      have hp : Apart p r := fun x hx hmem => h x hx (List.mem_cons_of_mem c hmem)
      exact List.cons_prefix_cons.mpr ⟨rfl, ih hp w hrest⟩

theorem cut?_append_apart [DecidableEq α] (h : Apart p r) (w : List α) :
    cut? p (w ++ r) = ((cut? p w).map fun parts => (parts.1, parts.2 ++ r)).or
      ((cut? p r).map fun parts => (w ++ parts.1, parts.2)) := by
  induction w with
  | nil =>
    rw [List.nil_append, cut?]
    split
    case isTrue hnil =>
      subst hnil
      cases r <;> simp [cut?]
    case isFalse => simp
  | cons c w ih =>
    have hprefix : p.isPrefixOf (c :: w ++ r) = p.isPrefixOf (c :: w) := by
      rw [Bool.eq_iff_iff, List.isPrefixOf_iff_prefix, List.isPrefixOf_iff_prefix,
        prefix_append_apart h]
    rw [List.cons_append, cut?, ← List.cons_append, hprefix, cut?]
    split
    case isTrue => simp
    case isFalse => cases hcut : cut? p w <;> simp [ih, hcut, Function.comp_def]

end

-- ---------------------------------------------------------------------------
-- Stops
-- ---------------------------------------------------------------------------

/-- Nothing, or a stop first. -/
def Breaks (stop : α → Bool) (r : List α) : Prop := ∀ c ∈ r.head?, stop c = true

/-- No stop but at the start. -/
def IsWord (stop : α → Bool) (w : List α) : Prop := ∀ c ∈ w.tail, stop c = false

/-- A pattern in one word, with nothing of it in the mark and no start of the mark in it. -/
structure Maskable (stop : α → Bool) (mark p : List α) : Prop where
  nonempty : p ≠ []
  inWord : ∀ c ∈ p, stop c = false
  apart : Apart p mark
  unmarked : ¬ p <:+: mark

section
variable [DecidableEq α] (stop : α → Bool) (mark : List α)

/-- With the mark for the first `p` and what follows it up to a stop. -/
def mask (p out : List α) : List α :=
  match cut? p out with
  | none => out
  | some (a, b) => a ++ mark ++ b.dropWhile fun c => !stop c

/-- One pattern after the other. -/
def maskAll (ps : List (List α)) (out : List α) : List α :=
  ps.foldl (fun out p => mask stop mark p out) out

/-- What is left of a word in front of the first `p`, all of it without one. -/
def before (p w : List α) : List α := ((cut? p w).map Prod.fst).getD w

/-- What is left of it in front of the patterns, taken one after the other. -/
def clip (ps : List (List α)) (w : List α) : List α := ps.foldl (fun w p => before p w) w

/-- The patterns that a word leaves for the words after it. -/
def spare : List (List α) → List α → List (List α)
  | [], _ => []
  | p :: ps, w => if occurs p w then spare ps (before p w) else p :: spare ps w

end

-- ---------------------------------------------------------------------------
-- One word
-- ---------------------------------------------------------------------------

section
variable {stop : α → Bool} {mark p q w r m : List α}

theorem Breaks.dropWhile_not (hr : Breaks stop r) : (r.dropWhile fun c => !stop c) = r := by
  cases r with
  | nil => rfl
  | cons c r => simp [hr c rfl]

namespace Maskable

theorem apart_of_breaks (hp : Maskable stop mark p) (hr : Breaks stop r) : Apart p r := by
  rintro c hc hmem
  have hstop := hr c hc
  rw [hp.inWord c hmem] at hstop
  cases hstop

/-- Behind a word there is the mark, or not, and what follows. -/
theorem apart_append (hp : Maskable stop mark p) (hm : m = [] ∨ m = mark) (hr : Breaks stop r) :
    Apart p (m ++ r) := by
  cases m with
  | nil => exact hp.apart_of_breaks hr
  | cons c m =>
    obtain rfl := hm.resolve_left nofun
    rintro _ ⟨rfl⟩
    exact hp.apart c rfl

theorem not_infix_mark (hp : Maskable stop mark p) (hm : m = [] ∨ m = mark) : ¬ p <:+: m := by
  obtain rfl | rfl := hm
  · exact fun h => hp.nonempty (List.infix_nil.mp h)
  · exact hp.unmarked

theorem infix_append_marked (hp : Maskable stop mark p) (hm : m = [] ∨ m = mark)
    (hr : Breaks stop r) : p <:+: w ++ (m ++ r) ↔ p <:+: w ∨ p <:+: r := by
  rw [infix_append_apart (hp.apart_append hm hr), infix_append_apart (hp.apart_of_breaks hr),
    or_iff_right (hp.not_infix_mark hm)]

end Maskable

section
variable [DecidableEq α] {ps : List (List α)}

theorem before_prefix_self (p w : List α) : before p w <+: w := by
  cases hcut : cut? p w with
  | none => simp [before, hcut]
  | some parts =>
    obtain ⟨rfl, -⟩ := of_cut? hcut
    simp [before, hcut]

theorem IsWord.before (hw : IsWord stop w) (p : List α) : IsWord stop (before p w) :=
  fun c hc => hw c ((before_prefix_self p w).sublist.tail.mem hc)

theorem spare_subset (ps : List (List α)) (w : List α) : spare ps w ⊆ ps := by
  induction ps generalizing w with
  | nil => exact List.Subset.refl _
  | cons p ps ih =>
    rw [spare]
    split
    case isTrue => exact List.subset_cons_of_subset p (ih _)
    case isFalse => exact List.cons_subset_cons p (ih w)

/-- Where the pattern begins there is no stop up to the end of the word. -/
theorem IsWord.all_of_cut? (hw : IsWord stop w) (hp : Maskable stop mark p) {a b : List α}
    (hcut : cut? p w = some (a, b)) : ∀ c ∈ b, stop c = false := by
  obtain ⟨rfl, rest, rfl⟩ := of_cut? hcut
  obtain ⟨d, p, rfl⟩ := List.exists_cons_of_ne_nil hp.nonempty
  intro c hc
  cases a with
  | cons x a => exact hw c (List.mem_append_right a hc)
  | nil =>
    obtain rfl | htail := List.mem_cons.mp hc
    · exact hp.inWord c List.mem_cons_self
    · exact hw c htail

/-- A pattern is masked in a word that has it, and else in what follows. -/
theorem mask_append (hmark : ∀ c ∈ mark, stop c = false) (hp : Maskable stop mark p)
    (hw : IsWord stop w) (hm : m = [] ∨ m = mark) (hr : Breaks stop r) :
    mask stop mark p (w ++ (m ++ r)) =
      if occurs p w then before p w ++ (mark ++ r) else w ++ (m ++ mask stop mark p r) := by
  have hm' : ∀ c ∈ m, stop c = false := by
    obtain rfl | rfl := hm
    · nofun
    · exact hmark
  have hnone : cut? p m = none := cut?_eq_none.mpr (hp.not_infix_mark hm)
  rw [mask, cut?_append_apart (hp.apart_append hm hr), cut?_append_apart (hp.apart_of_breaks hr),
    hnone]
  cases hcut : cut? p w with
  | none => cases hrest : cut? p r <;> simp [occurs, hcut, mask, hrest]
  | some parts =>
    have hb : ∀ c ∈ parts.2, (!stop c) = true := fun c hc => by
      rw [hw.all_of_cut? hp hcut c hc]
      rfl
    have hmb : ∀ c ∈ m, (!stop c) = true := fun c hc => by
      rw [hm' c hc]
      rfl
    simp [occurs, before, hcut, List.dropWhile_append_of_pos hb, List.dropWhile_append_of_pos hmb,
      hr.dropWhile_not]

theorem Breaks.mask (hp : Maskable stop mark p) (hr : Breaks stop r) :
    Breaks stop (mask stop mark p r) := by
  rw [Lib.mask]
  cases hcut : cut? p r with
  | none => exact hr
  | some parts =>
    obtain ⟨rfl, rest, hrest⟩ := of_cut? hcut
    obtain ⟨d, p, rfl⟩ := List.exists_cons_of_ne_nil hp.nonempty
    cases ha : parts.1 with
    | cons x a =>
      intro c hc
      have hhead : x = c := by simpa [ha] using hc
      exact hhead ▸ hr x (by rw [ha]; rfl)
    | nil =>
      have hstop := hr d (by rw [ha, ← hrest]; rfl)
      rw [hp.inWord d List.mem_cons_self] at hstop
      cases hstop

theorem Breaks.maskAll (hps : ∀ p ∈ ps, Maskable stop mark p) (hr : Breaks stop r) :
    Breaks stop (maskAll stop mark ps r) := by
  induction ps generalizing r with
  | nil => exact hr
  | cons p ps ih =>
    obtain ⟨hp, hps⟩ := List.forall_mem_cons.mp hps
    exact ih hps (hr.mask hp)

/-- The word is clipped, marked or not, and what it leaves goes on. -/
theorem maskAll_append (hmark : ∀ c ∈ mark, stop c = false) (hps : ∀ p ∈ ps, Maskable stop mark p)
    (hw : IsWord stop w) (hm : m = [] ∨ m = mark) (hr : Breaks stop r) :
    ∃ m', (m' = [] ∨ m' = mark) ∧
      maskAll stop mark ps (w ++ (m ++ r)) = clip ps w ++ (m' ++ maskAll stop mark (spare ps w) r) := by
  induction ps generalizing w m r with
  | nil => exact ⟨m, hm, rfl⟩
  | cons p ps ih =>
    obtain ⟨hp, hps⟩ := List.forall_mem_cons.mp hps
    have hstep := mask_append hmark hp hw hm hr
    by_cases hoccurs : occurs p w
    · rw [if_pos hoccurs] at hstep
      obtain ⟨m', hm', hrest⟩ := ih hps (hw.before p) (.inr rfl) hr
      refine ⟨m', hm', ?_⟩
      rw [spare, if_pos hoccurs, maskAll, List.foldl_cons, hstep]
      exact hrest
    · rw [if_neg hoccurs] at hstep
      have hbefore : before p w = w := by
        rw [occurs, Option.not_isSome_iff_eq_none] at hoccurs
        simp [before, hoccurs]
      obtain ⟨m', hm', hrest⟩ := ih hps hw hm (hr.mask hp)
      refine ⟨m', hm', ?_⟩
      rw [spare, if_neg hoccurs, maskAll, List.foldl_cons, hstep, clip, List.foldl_cons, hbefore]
      exact hrest

theorem infix_maskAll_append (hmark : ∀ c ∈ mark, stop c = false)
    (hps : ∀ p ∈ ps, Maskable stop mark p) (hq : Maskable stop mark q) (hw : IsWord stop w)
    (hr : Breaks stop r) : q <:+: maskAll stop mark ps (w ++ r) ↔
      q <:+: clip ps w ∨ q <:+: maskAll stop mark (spare ps w) r := by
  obtain ⟨m, hm, hrest⟩ := maskAll_append hmark hps hw (.inl rfl) hr
  have hspare : ∀ p ∈ spare ps w, Maskable stop mark p := fun p hp => hps p (spare_subset ps w hp)
  rw [List.nil_append] at hrest
  rw [hrest, hq.infix_append_marked hm (hr.maskAll hspare)]

end

end

-- ---------------------------------------------------------------------------
-- Many words
-- ---------------------------------------------------------------------------

def words (stop : α → Bool) (l : List α) : List (List α) := l.splitBy fun _ c => !stop c

/-- The second of two words begins with a stop. -/
def Meets (stop : α → Bool) (a b : List α) : Prop :=
  ∃ (_ : a ≠ []) (hb : b ≠ []), (!stop (b.head hb)) = false

section
variable {stop : α → Bool}

theorem isWord_of_isChain {w : List α} (h : w.IsChain fun _ c => (!stop c) = true) :
    IsWord stop w := by
  induction w with
  | nil => nofun
  | cons a w ih =>
    cases w with
    | nil => nofun
    | cons b w =>
      obtain ⟨hb, hw⟩ := List.isChain_cons_cons.mp h
      intro c hc
      obtain rfl | hc := List.mem_cons.mp hc
      · exact Bool.not_eq_true' _ ▸ hb
      · exact ih hw c hc

theorem isWord_of_mem_words {l w : List α} (hw : w ∈ words stop l) : IsWord stop w :=
  isWord_of_isChain (List.isChain_of_mem_splitBy hw)

theorem isChain_words (stop : α → Bool) (l : List α) : (words stop l).IsChain (Meets stop) :=
  List.isChain_getLast_head_splitBy (fun _ c => !stop c) l

theorem breaks_flatten {w : List α} {ws : List (List α)} (h : (w :: ws).IsChain (Meets stop)) :
    Breaks stop ws.flatten := by
  cases ws with
  | nil => nofun
  | cons b ws =>
    obtain ⟨⟨-, hne, hstop⟩, -⟩ := List.isChain_cons_cons.mp h
    obtain ⟨c, b, rfl⟩ := List.exists_cons_of_ne_nil hne
    rintro _ ⟨rfl⟩
    simpa using hstop

end

section
variable [DecidableEq α] {stop : α → Bool} {mark : List α} {ps qs : List (List α)}

/-- Every word is rid of `qs` by the patterns that the words before it leave. -/
def Covers (qs : List (List α)) : List (List α) → List (List α) → Prop
  | _, [] => True
  | ps, w :: ws => (∀ q ∈ qs, ¬ q <:+: clip ps w) ∧ Covers qs (spare ps w) ws

theorem mask_nil {p : List α} (hp : p ≠ []) : mask stop mark p [] = [] := by
  simp [mask, cut?, hp]

theorem maskAll_nil (hps : ∀ p ∈ ps, Maskable stop mark p) : maskAll stop mark ps [] = [] := by
  induction ps with
  | nil => rfl
  | cons p ps ih =>
    obtain ⟨hp, hps⟩ := List.forall_mem_cons.mp hps
    rw [maskAll, List.foldl_cons, mask_nil hp.nonempty]
    exact ih hps

theorem covers_flatten_iff (hmark : ∀ c ∈ mark, stop c = false)
    (hps : ∀ p ∈ ps, Maskable stop mark p) (hqs : ∀ q ∈ qs, Maskable stop mark q)
    {ws : List (List α)} (hwords : ∀ w ∈ ws, IsWord stop w) (hchain : ws.IsChain (Meets stop)) :
    Covers qs ps ws ↔ ∀ q ∈ qs, ¬ q <:+: maskAll stop mark ps ws.flatten := by
  induction ws generalizing ps with
  | nil =>
    rw [List.flatten_nil, maskAll_nil hps]
    exact iff_of_true trivial fun q hq h => (hqs q hq).nonempty (List.infix_nil.mp h)
  | cons w ws ih =>
    obtain ⟨hw, hws⟩ := List.forall_mem_cons.mp hwords
    have hspare : ∀ p ∈ spare ps w, Maskable stop mark p := fun p hp => hps p (spare_subset ps w hp)
    rw [Covers, ih hspare hws hchain.tail, ← forall₂_and]
    refine forall₂_congr fun q hq => ?_
    rw [List.flatten_cons, infix_maskAll_append hmark hps (hqs q hq) hw (breaks_flatten hchain), not_or]

/-- No pattern of `qs` is left exactly where the words leave enough for each other. -/
theorem covers_iff (hmark : ∀ c ∈ mark, stop c = false) (hps : ∀ p ∈ ps, Maskable stop mark p)
    (hqs : ∀ q ∈ qs, Maskable stop mark q) (l : List α) :
    Covers qs ps (words stop l) ↔ ∀ q ∈ qs, ¬ q <:+: maskAll stop mark ps l := by
  rw [covers_flatten_iff hmark hps hqs (fun w hw => isWord_of_mem_words hw) (isChain_words stop l),
    words, List.flatten_splitBy]

/-- What follows the last word stays. -/
theorem maskAll_append_stops (hps : ∀ p ∈ ps, Maskable stop mark p) {v : List α}
    (hv : ∀ c ∈ v, stop c = true) (u : List α) :
    maskAll stop mark ps (u ++ v) = maskAll stop mark ps u ++ v := by
  have hbreaks : Breaks stop v := fun c hc => hv c (List.mem_of_mem_head? hc)
  induction ps generalizing u with
  | nil => rfl
  | cons p ps ih =>
    obtain ⟨hp, hps⟩ := List.forall_mem_cons.mp hps
    have hnone : cut? p v = none := by
      rw [cut?_eq_none]
      intro hocc
      have hhead := List.head_mem hp.nonempty
      have hstop := hv _ (hocc.subset hhead)
      rw [hp.inWord _ hhead] at hstop
      cases hstop
    have hstep : mask stop mark p (u ++ v) = mask stop mark p u ++ v := by
      rw [mask, mask, cut?_append_apart (hp.apart_of_breaks hbreaks), hnone]
      cases hcut : cut? p u with
      | none => rfl
      | some parts =>
        have hdrop : ((parts.2 ++ v).dropWhile fun c => !stop c) =
            (parts.2.dropWhile fun c => !stop c) ++ v := by
          rw [List.dropWhile_append]
          split
          case isTrue hempty => rw [hbreaks.dropWhile_not, List.isEmpty_iff.mp hempty, List.nil_append]
          case isFalse => rfl
        simp [hdrop]
    rw [maskAll, List.foldl_cons, hstep]
    exact ih hps _

end

end Lib
