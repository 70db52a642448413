import Mathlib.Data.List.Basic

/-!
# Gated steps

A step that gives nothing where a guard fails, beside the step that always goes
on. A run of the first is a run of the second exactly where every guard along
it held.
-/

namespace Lib

variable {σ α β : Type}

theorem some_bind_eq (a : α) (f : α → Option β) : (some a >>= f) = f a := rfl

/-- A step that gives a result everywhere is folded as the step it is. -/
theorem foldlM_of_some {g : σ → α → Option σ} {f : σ → α → σ} {l : List α}
    (h : ∀ a ∈ l, ∀ s, g s a = some (f s a)) (s : σ) : l.foldlM g s = some (l.foldl f s) := by
  induction l generalizing s with
  | nil => rfl
  | cons a l ih =>
    rw [List.foldlM_cons, h a List.mem_cons_self s, List.foldl_cons]
    exact ih (fun b hb => h b (List.mem_cons_of_mem a hb)) (f s a)

/-- On the states of `Inv`, `g` does what `f` does where `Ok` holds, and
nothing elsewhere. -/
structure Gated (Inv : σ → Prop) (Ok : σ → α → Prop) (g : σ → α → Option σ) (f : σ → α → σ) :
    Prop where
  keep : ∀ {s}, Inv s → ∀ a, Inv (f s a)
  pass : ∀ {s a}, Inv s → Ok s a → g s a = some (f s a)
  stop : ∀ {s a}, Inv s → ¬ Ok s a → g s a = none

namespace Gated

variable {Inv : σ → Prop} {Ok : σ → α → Prop} {g : σ → α → Option σ} {f : σ → α → σ}

/-- The gated run goes through exactly where every step of it passes. -/
theorem foldlM_eq_some_iff (h : Gated Inv Ok g f) (l : List α) {s : σ} (hs : Inv s) :
    l.foldlM g s = some (l.foldl f s) ↔
      ∀ pre a post, l = pre ++ a :: post → Ok (pre.foldl f s) a := by
  induction l generalizing s with
  | nil =>
    refine ⟨fun _ pre a post heq => ?_, fun _ => rfl⟩
    cases pre <;> cases heq
  | cons b l ih =>
    rw [List.foldlM_cons, List.foldl_cons]
    by_cases hok : Ok s b
    · rw [h.pass hs hok]
      refine (ih (h.keep hs b)).trans ⟨?_, ?_⟩
      · intro hrest pre a post heq
        cases pre with
        | nil =>
          cases heq
          exact hok
        | cons c pre =>
          cases heq
          exact hrest pre a post rfl
      · intro hall pre a post heq
        exact hall (b :: pre) a post (congrArg (b :: ·) heq)
    · rw [h.stop hs hok]
      refine ⟨fun hsome => ?_, fun hall => absurd (hall [] b l rfl) hok⟩
      cases hsome

end Gated

end Lib
