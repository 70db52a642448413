import Mathlib.Logic.Function.Basic
import Rill.Lib.Slots

/-!
# Claims and watchers

Parties come and go, and each may hold one of a set of things or watch one.
Apart from the parties, a ledger says which things are held and how many watch
each; the two are kept in step by hand. `AtMostOneHolder` and `Exact` are how
far they agree, and the lemmas say which moves keep it so.
-/

namespace Lib

open Function

variable {ι : Type} [DecidableEq ι]

inductive Role (ι : Type)
  | idle
  | holder (i : ι)
  | watcher (i : ι)
  deriving DecidableEq

structure Ledger (ι : Type) where
  roles : List (Role ι)
  held : ι → Bool
  watchers : ι → Nat

inductive Move (ι : Type)
  | come
  | hold (slot : Nat) (i : ι)
  | watch (slot : Nat) (i : ι)
  | go (slot : Nat)

namespace Ledger

/-- `i` is let go by a party in the role `r`. -/
def release (L : Ledger ι) (r : Role ι) : Ledger ι :=
  match r with
  | .idle => L
  | .holder i => { L with held := update L.held i false }
  | .watcher i => { L with watchers := update L.watchers i (L.watchers i - 1) }

/-- A count stops at `cap`. A party that takes a role lets go of nothing. -/
def apply (cap : Nat) (L : Ledger ι) : Move ι → Ledger ι
  | .come => { L with roles := L.roles ++ [.idle] }
  | .hold slot i =>
    { L with held := update L.held i true, roles := L.roles.set slot (.holder i) }
  | .watch slot i =>
    { L with
      watchers := update L.watchers i (min (L.watchers i + 1) cap)
      roles := L.roles.set slot (.watcher i) }
  | .go slot =>
    match L.roles[slot]? with
    | none => L
    | some r => { L.release r with roles := L.roles.eraseIdx slot }

/-- The claims as counted by the parties: nothing is held twice, and what a
party holds is held. -/
def AtMostOneHolder (L : Ledger ι) : Prop :=
  ∀ i, L.roles.count (.holder i) ≤ (L.held i).toNat

/-- The ledger says what the parties are. -/
def Exact (L : Ledger ι) : Prop :=
  ∀ i, L.roles.count (.holder i) = (L.held i).toNat ∧ L.roles.count (.watcher i) = L.watchers i

theorem Exact.atMostOneHolder {L : Ledger ι} (h : Exact L) : AtMostOneHolder L :=
  fun i => Nat.le_of_eq (h i).1

theorem count_set {l : List (Role ι)} {slot : Nat} {r : Role ι} (h : l[slot]? = some r)
    (r' q : Role ι) :
    (l.set slot r').count q + (r == q).toNat = l.count q + (r' == q).toNat :=
  countP_set_add h (· == q) r'

theorem count_eraseIdx {l : List (Role ι)} {slot : Nat} {r : Role ι} (h : l[slot]? = some r)
    (q : Role ι) : (l.eraseIdx slot).count q + (r == q).toNat = l.count q :=
  countP_eraseIdx_add h (· == q)

theorem count_come (l : List (Role ι)) (i : ι) :
    (l ++ [Role.idle]).count (Role.holder i) = l.count (Role.holder i) ∧
      (l ++ [Role.idle]).count (Role.watcher i) = l.count (Role.watcher i) := by
  simp [List.count_append]

theorem toNat_beq (r q : Role ι) : (r == q).toNat = if r = q then 1 else 0 := by
  by_cases h : r = q
  · simp [h]
  · simp [h]

/-- A party may take a claim, unless another party has it; a watcher of a held
thing may not. -/
theorem AtMostOneHolder.apply {cap : Nat} {L : Ledger ι} (h : AtMostOneHolder L) (mv : Move ι)
    (hmv : ∀ slot i, mv = .hold slot i → L.held i = true → L.roles[slot]? = some (.holder i)) :
    AtMostOneHolder (L.apply cap mv) := by
  intro j
  have hj := h j
  cases mv with
  | come =>
    simp only [Ledger.apply, (count_come L.roles j).1]
    exact hj
  | hold slot i =>
    simp only [Ledger.apply]
    cases hslot : L.roles[slot]? with
    | none =>
      rw [List.set_eq_of_length_le (List.getElem?_eq_none_iff.mp hslot)]
      by_cases hij : j = i
      · subst hij
        rw [update_self]
        exact Nat.le_trans hj (Bool.toNat_le _)
      · rwa [update_of_ne hij]
    | some r =>
      have hcount := count_set hslot (.holder i) (.holder j)
      rw [toNat_beq, toNat_beq] at hcount
      by_cases hij : j = i
      · subst hij
        rw [update_self]
        rw [if_pos rfl] at hcount
        cases hheld : L.held j with
        | false =>
          rw [hheld] at hj
          simp only [Bool.toNat_false, Bool.toNat_true] at hj ⊢
          omega
        | true =>
          have hr : r = .holder j := Option.some.inj (hslot.symm.trans (hmv slot j rfl hheld))
          rw [hheld] at hj
          rw [if_pos hr] at hcount
          simp only [Bool.toNat_true] at hj ⊢
          omega
      · rw [update_of_ne hij]
        rw [if_neg (fun h => hij (Role.holder.inj h).symm)] at hcount
        omega
  | watch slot i =>
    simp only [Ledger.apply]
    cases hslot : L.roles[slot]? with
    | none => rwa [List.set_eq_of_length_le (List.getElem?_eq_none_iff.mp hslot)]
    | some r =>
      have hcount := count_set hslot (.watcher i) (.holder j)
      simp only [toNat_beq, reduceCtorEq, if_false, Nat.add_zero] at hcount
      omega
  | go slot =>
    simp only [Ledger.apply]
    cases hslot : L.roles[slot]? with
    | none => exact hj
    | some r =>
      have hcount := count_eraseIdx hslot (.holder j)
      rw [toNat_beq] at hcount
      cases r with
      | idle =>
        simp only [release]
        omega
      | watcher i =>
        simp only [release]
        omega
      | holder i =>
        simp only [release]
        by_cases hij : j = i
        · subst hij
          rw [update_self]
          rw [if_pos rfl] at hcount
          have hle := Bool.toNat_le (L.held j)
          simp only [Bool.toNat_false]
          omega
        · rw [update_of_ne hij]
          omega

/-- A role may be taken by a party that has none, and again by one that has it
already, and while the count is below its cap. -/
theorem Exact.apply {cap : Nat} {L : Ledger ι} (h : Exact L) (mv : Move ι)
    (hhold : ∀ slot i, mv = .hold slot i →
      (L.roles[slot]? = some .idle ∧ L.held i = false) ∨ L.roles[slot]? = some (.holder i))
    (hwatch : ∀ slot i, mv = .watch slot i → L.roles[slot]? = some .idle ∧ L.watchers i < cap) :
    Exact (L.apply cap mv) := by
  intro j
  obtain ⟨hheld, hwatchers⟩ := h j
  cases mv with
  | come =>
    simp only [Ledger.apply, (count_come L.roles j).1, (count_come L.roles j).2]
    exact ⟨hheld, hwatchers⟩
  | hold slot i =>
    simp only [Ledger.apply]
    rcases hhold slot i rfl with ⟨hslot, hfree⟩ | hslot
    · have hholder := count_set hslot (.holder i) (.holder j)
      have hwatcher := count_set hslot (.holder i) (.watcher j)
      simp only [toNat_beq, reduceCtorEq, if_false, Nat.add_zero] at hholder hwatcher
      refine ⟨?_, by rw [hwatcher, hwatchers]⟩
      by_cases hij : j = i
      · subst hij
        rw [hfree] at hheld
        rw [if_pos rfl] at hholder
        rw [update_self, hholder, hheld]
        rfl
      · rw [update_of_ne hij, hholder, if_neg fun h => hij (Role.holder.inj h).symm]
        exact hheld
    · have hsame : L.roles.set slot (.holder i) = L.roles := by
        obtain ⟨l₁, l₂, hl, rfl⟩ := exists_split hslot
        rw [hl, set_split]
      rw [hsame]
      refine ⟨?_, hwatchers⟩
      by_cases hij : j = i
      · subst hij
        have hpos : 0 < L.roles.count (.holder j) :=
          List.count_pos_iff.mpr (List.mem_of_getElem? hslot)
        have hle := Bool.toNat_le (L.held j)
        rw [update_self, Bool.toNat_true]
        omega
      · rwa [update_of_ne hij]
  | watch slot i =>
    obtain ⟨hslot, hcap⟩ := hwatch slot i rfl
    simp only [Ledger.apply]
    have hholder := count_set hslot (.watcher i) (.holder j)
    have hwatcher := count_set hslot (.watcher i) (.watcher j)
    simp only [toNat_beq, reduceCtorEq, if_false, Nat.add_zero] at hholder hwatcher
    refine ⟨by rw [hholder, hheld], ?_⟩
    by_cases hij : j = i
    · subst hij
      rw [if_pos rfl] at hwatcher
      rw [update_self, hwatcher, hwatchers, Nat.min_eq_left (by omega)]
    · rw [update_of_ne hij, hwatcher, if_neg fun h => hij (Role.watcher.inj h).symm]
      exact hwatchers
  | go slot =>
    simp only [Ledger.apply]
    cases hslot : L.roles[slot]? with
    | none => exact ⟨hheld, hwatchers⟩
    | some r =>
      have hholder := count_eraseIdx hslot (.holder j)
      have hwatcher := count_eraseIdx hslot (.watcher j)
      cases r with
      | idle =>
        simp only [toNat_beq, reduceCtorEq, if_false, Nat.add_zero] at hholder hwatcher
        exact ⟨hholder.trans hheld, hwatcher.trans hwatchers⟩
      | holder i =>
        simp only [toNat_beq, reduceCtorEq, if_false, Nat.add_zero] at hholder hwatcher
        refine ⟨?_, hwatcher.trans hwatchers⟩
        simp only [release]
        by_cases hij : j = i
        · subst hij
          rw [if_pos rfl] at hholder
          have hle := Bool.toNat_le (L.held j)
          rw [update_self, Bool.toNat_false]
          omega
        · rw [update_of_ne hij]
          rw [if_neg fun h => hij (Role.holder.inj h).symm] at hholder
          exact hholder.trans hheld
      | watcher i =>
        simp only [toNat_beq, reduceCtorEq, if_false, Nat.add_zero] at hholder hwatcher
        refine ⟨hholder.trans hheld, ?_⟩
        simp only [release]
        by_cases hij : j = i
        · subst hij
          rw [if_pos rfl] at hwatcher
          rw [update_self]
          omega
        · rw [update_of_ne hij]
          rw [if_neg fun h => hij (Role.watcher.inj h).symm] at hwatcher
          exact hwatcher.trans hwatchers

theorem Exact.of_empty {L : Ledger ι} (h : Exact L) (hroles : L.roles = []) (i : ι) :
    L.held i = false ∧ L.watchers i = 0 := by
  obtain ⟨hheld, hwatchers⟩ := h i
  rw [hroles, List.count_nil] at hheld hwatchers
  refine ⟨?_, hwatchers.symm⟩
  cases hi : L.held i with
  | false => rfl
  | true =>
    rw [hi] at hheld
    cases hheld

end Ledger

end Lib
