/-!
# Serial histories

An object that operations are applied to one at a time, and the histories in which
every answer is the one that the object gives at that point.
-/

namespace Lib

variable {σ κ ρ : Type}

/-- `log` leads from `s` to `t`, and each operation of it gets the answer recorded. -/
def Serial (apply : σ → κ → ρ × σ) (s : σ) : List (κ × ρ) → σ → Prop
  | [], t => s = t
  | (op, answer) :: log, t => (apply s op).1 = answer ∧ Serial apply (apply s op).2 log t

namespace Serial

variable {apply : σ → κ → ρ × σ}

theorem append {s t u : σ} {log more : List (κ × ρ)} (h : Serial apply s log t)
    (hmore : Serial apply t more u) : Serial apply s (log ++ more) u := by
  induction log generalizing s with
  | nil =>
    cases h
    exact hmore
  | cons entry log ih => exact ⟨h.1, ih h.2⟩

/-- One more operation, applied where the history ends. -/
theorem concat {s t : σ} {log : List (κ × ρ)} (h : Serial apply s log t) (op : κ) :
    Serial apply s (log ++ [(op, (apply t op).1)]) (apply t op).2 :=
  h.append ⟨rfl, rfl⟩

end Serial

end Lib
