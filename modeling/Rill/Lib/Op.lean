/-!
# State-and-error computations

Programs over a state `σ` that can fail with an `ε` and keep the state they had
reached when they fail, as a method behind a mutable reference does. `exec`
runs one; the `exec_*` lemmas evaluate a program step by step, and `Keeps` has
the rules for what every run of a program preserves.
-/

namespace Lib

abbrev Op (σ ε α : Type) := ExceptT ε (StateM σ) α

namespace Op

variable {σ τ ε δ α β : Type}

def exec (m : Op σ ε α) (s : σ) : Except ε α × σ := (ExceptT.run m).run s

/-- The program that runs as `f` does. -/
def of (f : σ → Except ε α × σ) : Op σ ε α := ExceptT.mk (StateT.mk f)

/-- `m` on the part `get` of the state; the part is put back even when `m` fails. -/
def on (get : σ → τ) (put : τ → σ → σ) (m : Op τ ε α) : Op σ ε α :=
  of fun s => ((m.exec (get s)).1, put (m.exec (get s)).2 s)

/-- As `on`, for a part that may be missing. -/
def zoom (get? : σ → Option τ) (put : τ → σ → σ) (missing : ε) (m : Op τ ε α) : Op σ ε α :=
  of fun s =>
    match get? s with
    | none => (.error missing, s)
    | some t => ((m.exec t).1, put (m.exec t).2 s)

/-- An outcome that needs no state. -/
def lift (r : Except ε α) : Op σ ε α := of fun s => (r, s)

/-- `m` with its failures renamed. -/
def mapError (f : ε → δ) (m : Op σ ε α) : Op σ δ α :=
  of fun s => ((m.exec s).1.mapError f, (m.exec s).2)

/-- `m` with its outcome as a value, never failing. -/
def attempt (m : Op σ ε α) : Op σ δ (Except ε α) := of fun s => (.ok (m.exec s).1, (m.exec s).2)

@[simp] theorem exec_of (f : σ → Except ε α × σ) (s : σ) : (of f).exec s = f s := rfl

@[simp] theorem exec_pure (a : α) (s : σ) : (pure a : Op σ ε α).exec s = (.ok a, s) := rfl

@[simp] theorem exec_throw (e : ε) (s : σ) : (throw e : Op σ ε α).exec s = (.error e, s) := rfl

@[simp] theorem exec_get (s : σ) : (get : Op σ ε σ).exec s = (.ok s, s) := rfl

@[simp] theorem exec_set (t s : σ) : (set t : Op σ ε PUnit).exec s = (.ok ⟨⟩, t) := rfl

@[simp] theorem exec_modify (f : σ → σ) (s : σ) :
    (modify f : Op σ ε PUnit).exec s = (.ok ⟨⟩, f s) := rfl

@[simp] theorem exec_on (get : σ → τ) (put : τ → σ → σ) (m : Op τ ε α) (s : σ) :
    (on get put m).exec s = ((m.exec (get s)).1, put (m.exec (get s)).2 s) := rfl

@[simp] theorem exec_lift (r : Except ε α) (s : σ) : (lift r : Op σ ε α).exec s = (r, s) := rfl

@[simp] theorem exec_mapError (f : ε → δ) (m : Op σ ε α) (s : σ) :
    (mapError f m).exec s = ((m.exec s).1.mapError f, (m.exec s).2) := rfl

@[simp] theorem exec_attempt (m : Op σ ε α) (s : σ) :
    (attempt m : Op σ δ (Except ε α)).exec s = (.ok (m.exec s).1, (m.exec s).2) := rfl

theorem exec_bind (m : Op σ ε α) (f : α → Op σ ε β) (s : σ) :
    (m >>= f).exec s = match m.exec s with
      | (.ok a, t) => (f a).exec t
      | (.error e, t) => (.error e, t) := by
  change (ExceptT.bindCont f (m.exec s).1 : StateM σ _).run (m.exec s).2 = _
  rcases m.exec s with ⟨e | a, t⟩
  · rfl
  · rfl

theorem exec_bind_ok {m : Op σ ε α} (h : m.exec s = (.ok a, t)) (f : α → Op σ ε β) :
    (m >>= f).exec s = (f a).exec t := by
  rw [exec_bind, h]

theorem exec_bind_error {m : Op σ ε α} (h : m.exec s = (.error e, t)) (f : α → Op σ ε β) :
    (m >>= f).exec s = (.error e, t) := by
  rw [exec_bind, h]

@[simp] theorem exec_get_bind (f : σ → Op σ ε β) (s : σ) : (get >>= f).exec s = (f s).exec s :=
  exec_bind_ok (exec_get s) f

@[simp] theorem exec_modify_bind (g : σ → σ) (f : PUnit → Op σ ε β) (s : σ) :
    ((modify g : Op σ ε PUnit) >>= f).exec s = (f ⟨⟩).exec (g s) :=
  exec_bind_ok (exec_modify g s) f

theorem exec_guard_pos {c : Prop} [Decidable c] (hc : c) (e : ε) (k : PUnit → Op σ ε α) (s : σ) :
    (if c then MonadExcept.throw e >>= k else k ⟨⟩ : Op σ ε α).exec s = (.error e, s) := by
  rw [if_pos hc]
  rfl

theorem exec_guard_neg {c : Prop} [Decidable c] (hc : ¬ c) (e : ε) (k : PUnit → Op σ ε α) (s : σ) :
    (if c then MonadExcept.throw e >>= k else k ⟨⟩ : Op σ ε α).exec s = (k ⟨⟩).exec s := by
  rw [if_neg hc]

theorem forM_cons (f : α → Op σ ε PUnit) (a : α) (l : List α) :
    (a :: l).forM f = f a >>= fun _ => l.forM f := rfl

theorem exec_bind_eq_ok {m : Op σ ε α} {f : α → Op σ ε β} :
    (m >>= f).exec s = (.ok b, t) ↔ ∃ a u, m.exec s = (.ok a, u) ∧ (f a).exec u = (.ok b, t) := by
  rw [exec_bind]
  rcases m.exec s with ⟨e | a, u⟩
  · simp
  · constructor
    · exact fun h => ⟨a, u, rfl, h⟩
    · rintro ⟨_, _, h, hf⟩
      cases h
      exact hf

/-- A walk that succeeds ran `f` on each of its elements, between the others. -/
theorem exec_forM_of_mem {f : α → Op σ ε PUnit} {l : List α} {a : α} (ha : a ∈ l) {s t : σ}
    (h : (l.forM f).exec s = (.ok ⟨⟩, t)) :
    ∃ l₁ l₂ u v, l = l₁ ++ a :: l₂ ∧ (l₁.forM f).exec s = (.ok ⟨⟩, u) ∧
      (f a).exec u = (.ok ⟨⟩, v) ∧ (l₂.forM f).exec v = (.ok ⟨⟩, t) := by
  induction l generalizing s with
  | nil => cases ha
  | cons b l ih =>
    rw [forM_cons] at h
    obtain ⟨_, r, hb, hl⟩ := exec_bind_eq_ok.mp h
    rcases List.mem_cons.mp ha with rfl | ha
    · exact ⟨[], l, s, r, rfl, rfl, hb, hl⟩
    · obtain ⟨l₁, l₂, u, v, rfl, hl₁, hrun, hl₂⟩ := ih ha hl
      refine ⟨b :: l₁, l₂, u, v, rfl, ?_, hrun, hl₂⟩
      rw [forM_cons]
      exact exec_bind_eq_ok.mpr ⟨_, r, hb, hl₁⟩

-- ---------------------------------------------------------------------------
-- Invariants
-- ---------------------------------------------------------------------------

/-- Every run of `m` from a state with `I` ends in one, failing runs included. -/
def Keeps (I : σ → Prop) (m : Op σ ε α) : Prop := ∀ s, I s → I (m.exec s).2

namespace Keeps

variable {I : σ → Prop}

theorem pure (a : α) : Keeps I (Pure.pure a : Op σ ε α) := fun _ h => h

theorem throw (e : ε) : Keeps I (MonadExcept.throw e : Op σ ε α) := fun _ h => h

theorem get : Keeps I (MonadState.get : Op σ ε σ) := fun _ h => h

theorem modify {f : σ → σ} (hf : ∀ s, I s → I (f s)) : Keeps I (modify f : Op σ ε PUnit) := hf

theorem bind {m : Op σ ε α} {f : α → Op σ ε β} (hm : Keeps I m) (hf : ∀ a, Keeps I (f a)) :
    Keeps I (m >>= f) := by
  intro s hs
  have h := hm s hs
  rw [exec_bind]
  rcases hrun : m.exec s with ⟨e | a, t⟩
  · rwa [hrun] at h
  · rw [hrun] at h
    exact hf a t h

theorem get_bind {f : σ → Op σ ε α} (hf : ∀ s, I s → I ((f s).exec s).2) :
    Keeps I (MonadState.get >>= f) := by
  intro s hs
  rw [exec_get_bind]
  exact hf s hs

theorem on {get : σ → τ} {put : τ → σ → σ} {m : Op τ ε α}
    (hm : ∀ s, I s → I (put (m.exec (get s)).2 s)) : Keeps I (Op.on get put m) := hm

theorem lift (r : Except ε α) : Keeps I (Op.lift r : Op σ ε α) := fun _ h => h

theorem mapError {m : Op σ ε α} (f : ε → δ) (hm : Keeps I m) : Keeps I (m.mapError f) := hm

theorem attempt {m : Op σ ε α} (hm : Keeps I m) : Keeps I (m.attempt : Op σ δ (Except ε α)) := hm

theorem ite {c : Prop} [Decidable c] {m n : Op σ ε α} (hm : c → Keeps I m)
    (hn : ¬ c → Keeps I n) : Keeps I (if c then m else n) := by
  split
  case isTrue h => exact hm h
  case isFalse h => exact hn h

/-- What a check that throws is followed by runs only when the check passes. -/
theorem guard {c : Prop} [Decidable c] {e : ε} {k : PUnit → Op σ ε α}
    (hk : ¬ c → Keeps I (k ⟨⟩)) :
    Keeps I (if c then MonadExcept.throw e >>= k else k ⟨⟩) := by
  split
  case isTrue => exact fun _ hs => hs
  case isFalse h => exact hk h

theorem forM {f : α → Op σ ε PUnit} (hf : ∀ a, Keeps I (f a)) (l : List α) :
    Keeps I (l.forM f) := by
  induction l with
  | nil => exact pure _
  | cons a l ih => exact bind (hf a) fun _ => ih

end Keeps

-- ---------------------------------------------------------------------------
-- One program on each of a list of states
-- ---------------------------------------------------------------------------

/-- `m` on each state in turn, up to the first failure and where it was. -/
def each (m : Op σ ε PUnit) : List σ → Except (Nat × ε) PUnit × List σ
  | [] => (.ok ⟨⟩, [])
  | s :: rest =>
    match m.exec s with
    | (.error e, s) => (.error (0, e), s :: rest)
    | (.ok _, s) =>
      match each m rest with
      | (.ok _, rest) => (.ok ⟨⟩, s :: rest)
      | (.error (i, e), rest) => (.error (i + 1, e), s :: rest)

theorem each_ok {m : Op σ ε PUnit} {l : List σ} (h : ∀ s ∈ l, (m.exec s).1 = .ok ⟨⟩) :
    each m l = (.ok ⟨⟩, l.map fun s => (m.exec s).2) := by
  induction l with
  | nil => rfl
  | cons s l ih =>
    have hs := h s List.mem_cons_self
    rcases hrun : m.exec s with ⟨r, t⟩
    rw [hrun] at hs
    obtain rfl : r = .ok ⟨⟩ := hs
    simp [each, hrun, ih fun t ht => h t (List.mem_cons_of_mem _ ht)]

theorem each_error {m : Op σ ε PUnit} {l : List σ} (h : ∀ s ∈ l, (m.exec s).1 = .ok ⟨⟩) {s t : σ}
    {e : ε} (hs : m.exec s = (.error e, t)) (rest : List σ) :
    each m (l ++ s :: rest) =
      (.error (l.length, e), (l.map fun s => (m.exec s).2) ++ t :: rest) := by
  induction l with
  | nil => simp [each, hs]
  | cons a l ih =>
    have ha := h a List.mem_cons_self
    rcases hrun : m.exec a with ⟨r, u⟩
    rw [hrun] at ha
    obtain rfl : r = .ok ⟨⟩ := ha
    simp [each, hrun, ih fun t ht => h t (List.mem_cons_of_mem _ ht)]

/-- A list on which `m` succeeds throughout, or its first failure. -/
theorem each_split (m : Op σ ε PUnit) (l : List σ) :
    (∀ s ∈ l, (m.exec s).1 = .ok ⟨⟩) ∨
      ∃ l₁ s l₂ e t, l = l₁ ++ s :: l₂ ∧ (∀ s ∈ l₁, (m.exec s).1 = .ok ⟨⟩) ∧
        m.exec s = (.error e, t) := by
  induction l with
  | nil => exact .inl fun s hs => absurd hs List.not_mem_nil
  | cons s l ih =>
    rcases hrun : m.exec s with ⟨e | a, t⟩
    · exact .inr ⟨[], s, l, e, t, rfl, fun s hs => absurd hs List.not_mem_nil, hrun⟩
    · have hs : (m.exec s).1 = .ok ⟨⟩ := by rw [hrun]
      rcases ih with hall | ⟨l₁, u, l₂, e, v, rfl, hall, hu⟩
      · exact .inl (List.forall_mem_cons.mpr ⟨hs, hall⟩)
      · exact .inr ⟨s :: l₁, u, l₂, e, v, rfl, List.forall_mem_cons.mpr ⟨hs, hall⟩, hu⟩

end Op

-- ---------------------------------------------------------------------------
-- Checks that only fail or pass
-- ---------------------------------------------------------------------------

theorem guard_eq_ok {ε α : Type} {c : Prop} [Decidable c] {e : ε} {k : PUnit → Except ε α} {a : α} :
    (if c then MonadExcept.throw e >>= k else k ⟨⟩) = .ok a ↔ ¬ c ∧ k ⟨⟩ = .ok a := by
  split
  case isTrue hc => exact ⟨nofun, fun h => absurd hc h.1⟩
  case isFalse hc => exact ⟨fun h => ⟨hc, h⟩, fun h => h.2⟩

theorem last_guard_eq_ok {ε : Type} {c : Prop} [Decidable c] {e : ε} :
    (if c then MonadExcept.throw e else Pure.pure ⟨⟩ : Except ε PUnit) = .ok ⟨⟩ ↔ ¬ c := by
  split
  case isTrue hc => exact ⟨nofun, fun h => absurd hc h⟩
  case isFalse hc => exact ⟨fun _ => hc, fun _ => rfl⟩

end Lib
