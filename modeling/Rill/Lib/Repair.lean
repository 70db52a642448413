import Rill.Lib.Op

/-!
# Runs from a repaired state

A repair takes the faults out of a state. While a run meets none of them it goes
as the run from the repaired state does; the first one it meets ends it, and the
repaired run goes on past it.
-/

namespace Lib

/-- `sound` holds while no fault was met, `struck` of a repaired run that is past one. -/
structure Repair (σ : Type) where
  fix : σ → σ
  sound : σ → Prop
  struck : σ → Prop

namespace Repair

variable {σ τ ε δ α β : Type}

/-- How a run ends, and how the repaired run does. -/
inductive Ends (r : Repair σ) (bad : ε → Prop) : Except ε α × σ → Except ε α × σ → Prop
  | same (a : Except ε α) (hs : r.sound s) : Ends r bad (a, s) (a, r.fix s)
  | fails (he : bad e) (ht : r.struck t) : Ends r bad (.error e, s) (b, t)

/-- A fault that is met ends `m` with a failure that is `bad`, and only that sets it apart
from the repaired run. -/
structure Follows (r : Repair σ) (bad : ε → Prop) (m : Op σ ε α) : Prop where
  keeps : Op.Keeps r.struck m
  run : ∀ s, r.sound s → r.Ends bad (m.exec s) (m.exec (r.fix s))

/-- A part of the state that has the faults. -/
structure Part (r : Repair σ) (r' : Repair τ) (get : σ → τ) (put : τ → σ → σ) : Prop where
  get_fix : ∀ s, get (r.fix s) = r'.fix (get s)
  put_fix : ∀ s t, put (r'.fix t) (r.fix s) = r.fix (put t s)
  sound : ∀ s, r.sound s → r'.sound (get s)
  struck : ∀ s, r.struck s → r'.struck (get s)
  put_sound : ∀ s t, r.sound s → r'.sound t → r.sound (put t s)
  put_struck : ∀ s t, r.struck s → r'.struck t → r.struck (put t s)
  strikes : ∀ s t, r.sound s → r'.struck t → r.struck (put t (r.fix s))

namespace Follows

variable {r : Repair σ} {bad : ε → Prop}

theorem pure (a : α) : r.Follows bad (Pure.pure a : Op σ ε α) :=
  ⟨.pure a, fun _ hs => .same _ hs⟩

theorem throw (e : ε) : r.Follows bad (MonadExcept.throw e : Op σ ε α) :=
  ⟨.throw e, fun _ hs => .same _ hs⟩

theorem lift (a : Except ε α) : r.Follows bad (Op.lift a : Op σ ε α) :=
  ⟨.lift a, fun _ hs => .same _ hs⟩

theorem modify {f : σ → σ} (hstruck : ∀ s, r.struck s → r.struck (f s))
    (hsound : ∀ s, r.sound s → r.sound (f s)) (hfix : ∀ s, r.sound s → f (r.fix s) = r.fix (f s)) :
    r.Follows bad (modify f : Op σ ε PUnit) := by
  refine ⟨.modify hstruck, fun s hs => ?_⟩
  rw [Op.exec_modify, Op.exec_modify, hfix s hs]
  exact .same _ (hsound s hs)

/-- The repaired run is past the fault that ended `m`, and stays so. -/
theorem bind {m : Op σ ε α} {f : α → Op σ ε β} (hm : r.Follows bad m)
    (hf : ∀ a, r.Follows bad (f a)) : r.Follows bad (m >>= f) := by
  refine ⟨.bind hm.keeps fun a => (hf a).keeps, fun s hs => ?_⟩
  have hends := hm.run s hs
  rw [Op.exec_bind, Op.exec_bind]
  generalize m.exec s = p at hends
  generalize m.exec (r.fix s) = q at hends
  cases hends with
  | same a hs =>
    cases a with
    | error e => exact .same _ hs
    | ok a => exact (hf a).run _ hs
  | @fails _ t _ b he ht =>
    cases b with
    | error e => exact .fails he ht
    | ok b => exact .fails he ((hf b).keeps t ht)

theorem get_bind {f : σ → Op σ ε α} (hfix : ∀ s, r.sound s → f (r.fix s) = f s)
    (hf : ∀ s, r.Follows bad (f s)) : r.Follows bad (MonadState.get >>= f) := by
  refine ⟨.get_bind fun s hs => (hf s).keeps s hs, fun s hs => ?_⟩
  rw [Op.exec_get_bind, Op.exec_get_bind, hfix s hs]
  exact (hf s).run s hs

theorem ite {c : Prop} [Decidable c] {m n : Op σ ε α} (hm : r.Follows bad m)
    (hn : r.Follows bad n) : r.Follows bad (if c then m else n) := by
  split
  · exact hm
  · exact hn

theorem guard {c : Prop} [Decidable c] {e : ε} {k : PUnit → Op σ ε α} (hk : r.Follows bad (k ⟨⟩)) :
    r.Follows bad (if c then MonadExcept.throw e >>= k else k ⟨⟩) := by
  split
  · exact ⟨fun _ hs => hs, fun _ hs => .same _ hs⟩
  · exact hk

theorem forM {f : α → Op σ ε PUnit} (hf : ∀ a, r.Follows bad (f a)) (l : List α) :
    r.Follows bad (l.forM f) := by
  induction l with
  | nil => exact pure _
  | cons a l ih => exact bind (hf a) fun _ => ih

theorem mapError {bad' : δ → Prop} {m : Op σ ε α} {f : ε → δ} (hm : r.Follows bad m)
    (hf : ∀ e, bad e → bad' (f e)) : r.Follows bad' (m.mapError f) := by
  refine ⟨.mapError f hm.keeps, fun s hs => ?_⟩
  have hends := hm.run s hs
  rw [Op.exec_mapError, Op.exec_mapError]
  generalize m.exec s = p at hends
  generalize m.exec (r.fix s) = q at hends
  cases hends with
  | same a hs => exact .same _ hs
  | fails he ht => exact .fails (hf _ he) ht

theorem mapError_lift (a : Except ε α) (f : ε → δ) {bad' : δ → Prop} :
    r.Follows bad' ((Op.lift a : Op σ ε α).mapError f) := by
  have hlift : r.Follows (fun _ => False) (Op.lift a : Op σ ε α) := lift a
  exact hlift.mapError fun _ h => h.elim

/-- A program that looks at how `m` ended must not go on from a fault. -/
theorem attempt_bind {bad' : δ → Prop} {m : Op σ ε α} {f : Except ε α → Op σ δ β}
    (hm : r.Follows bad m) (hf : ∀ a, r.Follows bad' (f a))
    (hfails : ∀ e s, bad e → ∃ e', (f (.error e)).exec s = (.error e', s) ∧ bad' e') :
    r.Follows bad' (m.attempt >>= f) := by
  refine ⟨.bind (.attempt hm.keeps) fun a => (hf a).keeps, fun s hs => ?_⟩
  have hends := hm.run s hs
  rw [Op.exec_bind_ok (Op.exec_attempt m s), Op.exec_bind_ok (Op.exec_attempt m (r.fix s))]
  generalize m.exec s = p at hends
  generalize m.exec (r.fix s) = q at hends
  cases hends with
  | same a hs => exact (hf a).run _ hs
  | @fails e t u b he ht =>
    obtain ⟨e', hrun, he'⟩ := hfails e u he
    dsimp only
    rw [hrun]
    exact .fails he' ((hf b).keeps t ht)

theorem on {r' : Repair τ} {get : σ → τ} {put : τ → σ → σ} {m : Op τ ε α} (hpart : Part r r' get put)
    (hm : r'.Follows bad m) : r.Follows bad (Op.on get put m) := by
  refine ⟨.on fun s hs => hpart.put_struck _ _ hs (hm.keeps _ (hpart.struck s hs)), fun s hs => ?_⟩
  have hends := hm.run (get s) (hpart.sound s hs)
  rw [Op.exec_on, Op.exec_on, hpart.get_fix]
  generalize m.exec (get s) = p at hends
  generalize m.exec (r'.fix (get s)) = q at hends
  cases hends with
  | same a ht =>
    dsimp only
    rw [hpart.put_fix]
    exact .same _ (hpart.put_sound _ _ hs ht)
  | fails he ht => exact .fails he (hpart.strikes _ _ hs ht)

end Follows

end Repair

end Lib
