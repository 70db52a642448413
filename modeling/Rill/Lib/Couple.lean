import Mathlib.Data.List.Forall2
import Rill.Lib.Op

/-!
# Two runs side by side

A program run on one state and a program run on another, compared: they end in
related states with related results, or with the same failure. A failure that is
`bad` ends the comparison, on whichever side it comes. The rules build such
pairs of programs from pairs of their parts.
-/

namespace Lib

namespace Op

variable {σ τ ς υ ε δ α β γ ζ : Type}

/-- How two runs end that are compared. -/
inductive Ends (bad : ε → Prop) (R : σ → τ → Prop) (Q : α → β → Prop) :
    Except ε α × σ → Except ε β × τ → Prop
  | ok : Q a b → R s t → Ends bad R Q (.ok a, s) (.ok b, t)
  | error (e : ε) : R s t → Ends bad R Q (.error e, s) (.error e, t)
  | left : bad e → Ends bad R Q (.error e, s) q
  | right : bad e → Ends bad R Q p (.error e, t)

/-- From related states the two programs end alike. -/
def Couples (bad : ε → Prop) (R : σ → τ → Prop) (Q : α → β → Prop) (m : Op σ ε α) (n : Op τ ε β) :
    Prop :=
  ∀ s t, R s t → Ends bad R Q (m.exec s) (n.exec t)

variable {bad : ε → Prop} {R : σ → τ → Prop} {Q : α → β → Prop}

namespace Ends

/-- What follows runs from where both went on. -/
theorem bind {m : Op σ ε α} {n : Op τ ε β} {f : α → Op σ ε γ} {g : β → Op τ ε ζ} {R' : σ → τ → Prop}
    {Q' : γ → ζ → Prop} (h : Ends bad R Q (m.exec s) (n.exec t)) (hR : ∀ s t, R s t → R' s t)
    (hf : ∀ a b s t, Q a b → R s t → Ends bad R' Q' ((f a).exec s) ((g b).exec t)) :
    Ends bad R' Q' ((m >>= f).exec s) ((n >>= g).exec t) := by
  rw [exec_bind, exec_bind]
  generalize m.exec s = p at h
  generalize n.exec t = q at h
  cases h with
  | ok hab hst => exact hf _ _ _ _ hab hst
  | error e hst => exact .error e (hR _ _ hst)
  | left he => exact .left he
  | right he => exact .right he

end Ends

namespace Couples

theorem bind {m : Op σ ε α} {n : Op τ ε β} {f : α → Op σ ε γ} {g : β → Op τ ε ζ} {Q' : γ → ζ → Prop}
    (h : Couples bad R Q m n) (hf : ∀ a b, Q a b → Couples bad R Q' (f a) (g b)) :
    Couples bad R Q' (m >>= f) (n >>= g) :=
  fun s t hst => (h s t hst).bind (fun _ _ h => h) fun a b s t hab hst => hf a b hab s t hst

theorem pure (h : Q a b) : Couples bad R Q (Pure.pure a : Op σ ε α) (Pure.pure b : Op τ ε β) :=
  fun _ _ hst => .ok h hst

theorem throw (e : ε) :
    Couples bad R Q (MonadExcept.throw e : Op σ ε α) (MonadExcept.throw e : Op τ ε β) :=
  fun _ _ hst => .error e hst

theorem modify {f : σ → σ} {g : τ → τ} (h : ∀ s t, R s t → R (f s) (g t)) :
    Couples bad R Eq (modify f : Op σ ε PUnit) (modify g : Op τ ε PUnit) :=
  fun s t hst => .ok rfl (h s t hst)

theorem get_bind {f : σ → Op σ ε α} {g : τ → Op τ ε β}
    (h : ∀ s t, R s t → Ends bad R Q ((f s).exec s) ((g t).exec t)) :
    Couples bad R Q (MonadState.get >>= f) (MonadState.get >>= g) := by
  intro s t hst
  rw [exec_get_bind, exec_get_bind]
  exact h s t hst

theorem mapError {m : Op σ ε α} {n : Op τ ε β} {bad' : δ → Prop} (f : ε → δ)
    (hbad : ∀ e, bad e → bad' (f e)) (h : Couples bad R Q m n) :
    Couples bad' R Q (m.mapError f) (n.mapError f) := by
  intro s t hst
  rw [exec_mapError, exec_mapError]
  have h := h s t hst
  generalize m.exec s = p at h
  generalize n.exec t = q at h
  cases h with
  | ok hab hst => exact .ok hab hst
  | error e hst => exact .error (f e) hst
  | left he => exact .left (hbad _ he)
  | right he => exact .right (hbad _ he)

theorem attempt {m : Op σ ε α} {n : Op τ ε α} {bad : δ → Prop}
    (h : Couples (fun _ => False) R Eq m n) :
    Couples bad R Eq (m.attempt : Op σ δ (Except ε α)) (n.attempt : Op τ δ (Except ε α)) := by
  intro s t hst
  rw [exec_attempt, exec_attempt]
  have h := h s t hst
  generalize m.exec s = p at h
  generalize n.exec t = q at h
  cases h with
  | ok hab hst => exact .ok (congrArg Except.ok hab) hst
  | error e hst => exact .ok rfl hst
  | left he => exact he.elim
  | right he => exact he.elim

theorem on {get : σ → ς} {put : ς → σ → σ} {get' : τ → υ} {put' : υ → τ → τ} {m : Op ς ε α}
    {n : Op υ ε β} {S : ς → υ → Prop} (h : Couples bad S Q m n) (hget : ∀ s t, R s t → S (get s) (get' t))
    (hput : ∀ s t, R s t → ∀ u v, S u v → R (put u s) (put' v t)) :
    Couples bad R Q (Op.on get put m) (Op.on get' put' n) := by
  intro s t hst
  rw [exec_on, exec_on]
  have h := h _ _ (hget s t hst)
  generalize m.exec (get s) = p at h
  generalize n.exec (get' t) = q at h
  cases h with
  | ok hab huv => exact .ok hab (hput s t hst _ _ huv)
  | error e huv => exact .error e (hput s t hst _ _ huv)
  | left he => exact .left he
  | right he => exact .right he

theorem ite {c d : Prop} [Decidable c] [Decidable d] (hcd : c ↔ d) {m m' : Op σ ε α}
    {n n' : Op τ ε β} (h : c → Couples bad R Q m n) (h' : ¬ c → Couples bad R Q m' n') :
    Couples bad R Q (if c then m else m') (if d then n else n') := by
  by_cases hc : c
  · rw [if_pos hc, if_pos (hcd.mp hc)]
    exact h hc
  · rw [if_neg hc, if_neg fun hd => hc (hcd.mpr hd)]
    exact h' hc

theorem guard {c d : Prop} [Decidable c] [Decidable d] (hcd : c ↔ d) {e : ε} {k : PUnit → Op σ ε α}
    {k' : PUnit → Op τ ε β} (h : ¬ c → Couples bad R Q (k ⟨⟩) (k' ⟨⟩)) :
    Couples bad R Q (if c then MonadExcept.throw e >>= k else k ⟨⟩)
      (if d then MonadExcept.throw e >>= k' else k' ⟨⟩) :=
  ite hcd (fun _ _ _ hst => .error e hst) h

theorem forM {P : γ → ζ → Prop} {f : γ → Op σ ε PUnit} {g : ζ → Op τ ε PUnit} {l : List γ}
    {l' : List ζ} (hl : List.Forall₂ P l l') (h : ∀ a b, P a b → Couples bad R Eq (f a) (g b)) :
    Couples bad R Eq (l.forM f) (l'.forM g) := by
  induction hl with
  | nil => exact pure rfl
  | cons hab _ ih => exact bind (h _ _ hab) fun _ _ _ => ih

theorem forM_same {f : γ → Op σ ε PUnit} {g : γ → Op τ ε PUnit} (l : List γ)
    (h : ∀ a, Couples bad R Eq (f a) (g a)) : Couples bad R Eq (l.forM f) (l.forM g) :=
  forM (P := Eq) (List.forall₂_same.mpr fun _ _ => rfl) fun a _ hab => hab ▸ h a

/-- What the program on the left keeps may be known of its state. -/
theorem keeping {m : Op σ ε α} {n : Op τ ε β} {I : σ → Prop} (h : Couples bad R Q m n) (hm : Keeps I m) :
    Couples bad (fun s t => R s t ∧ I s) Q m n := by
  intro s t hst
  have h := h s t hst.1
  have hI := hm s hst.2
  generalize m.exec s = p at h hI
  generalize n.exec t = q at h
  cases h with
  | ok hab hst => exact .ok hab ⟨hst, hI⟩
  | error e hst => exact .error e ⟨hst, hI⟩
  | left he => exact .left he
  | right he => exact .right he

/-- One program, where the two states may be known to be the same. -/
theorem refine {R : σ → σ → Prop} {Q : α → α → Prop} {m : Op σ ε α} (h : Couples bad R Q m m) (p : Prop) :
    Couples bad (fun s t => R s t ∧ (p → s = t)) (fun a b => Q a b ∧ (p → a = b)) m m := by
  intro s t hst
  have h := h s t hst.1
  by_cases hp : p
  · obtain rfl := hst.2 hp
    generalize m.exec s = r at h
    cases h with
    | ok hab hst => exact .ok ⟨hab, fun _ => rfl⟩ ⟨hst, fun _ => rfl⟩
    | error e hst => exact .error e ⟨hst, fun _ => rfl⟩
    | left he => exact .left he
    | right he => exact .left he
  · generalize m.exec s = r at h
    generalize m.exec t = q at h
    cases h with
    | ok hab hst => exact .ok ⟨hab, fun k => absurd k hp⟩ ⟨hst, fun k => absurd k hp⟩
    | error e hst => exact .error e ⟨hst, fun k => absurd k hp⟩
    | left he => exact .left he
    | right he => exact .right he

end Couples

/-- Two programs on each of two lists of states, up to the first failures. -/
theorem ends_each {m : Op σ ε PUnit} {n : Op τ ε PUnit} (h : Couples bad R Eq m n) {l : List σ}
    {l' : List τ} (hl : List.Forall₂ R l l') :
    Ends (fun e => bad e.2) (List.Forall₂ R) Eq (each m l) (each n l') := by
  induction hl with
  | nil => exact .ok rfl .nil
  | @cons s t l l' hst hl ih =>
    have h := h s t hst
    unfold each
    generalize m.exec s = p at h
    generalize n.exec t = q at h
    cases h with
    | ok _ hst =>
      dsimp only
      generalize each m l = p at ih
      generalize each n l' = q at ih
      cases ih with
      | ok _ hl => exact .ok rfl (.cons hst hl)
      | error e hl => exact .error (e.1 + 1, e.2) (.cons hst hl)
      | @left e _ _ he => exact .left (e := (e.1 + 1, e.2)) he
      | @right e _ _ he => exact .right (e := (e.1 + 1, e.2)) he
    | error e hst => exact .error (0, e) (.cons hst hl)
    | @left e _ _ he => exact .left (e := (0, e)) he
    | @right e _ _ he => exact .right (e := (0, e)) he

end Op

end Lib
