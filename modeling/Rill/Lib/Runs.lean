import Mathlib.Logic.Relation
import Rill.Lib.Op

/-!
# Runs

A transition relation labelled by acts, the runs of it whose acts all meet a
condition, and programs whose runs are such runs.
-/

namespace Lib

open Relation

variable {σ τ ε α κ : Type}

/-- One act taken where it meets the condition `G`. -/
def Guarded (takes : σ → κ → σ → Prop) (G : σ → κ → Prop) (s t : σ) : Prop :=
  ∃ a, G s a ∧ takes s a t

/-- Runs whose acts all meet `G`. -/
abbrev Runs (takes : σ → κ → σ → Prop) (G : σ → κ → Prop) : σ → σ → Prop :=
  ReflTransGen (Guarded takes G)

/-- Runs of any acts. -/
abbrev AllRuns (takes : σ → κ → σ → Prop) : σ → σ → Prop := Runs takes fun _ _ => True

namespace Runs

variable {takes : σ → κ → σ → Prop} {G : σ → κ → Prop}

/-- What every guarded act keeps, every guarded run keeps. -/
theorem invariant {I : σ → Prop} (hstep : ∀ s a t, I s → G s a → takes s a t → I t)
    (hrun : Runs takes G s t) (hs : I s) : I t := by
  induction hrun with
  | refl => exact hs
  | tail _ hact ih =>
    obtain ⟨a, hG, ha⟩ := hact
    exact hstep _ a _ ih hG ha

theorem mono {G' : σ → κ → Prop} (h : ∀ s a, G s a → G' s a) (hrun : Runs takes G s t) :
    Runs takes G' s t := by
  induction hrun with
  | refl => exact .refl
  | tail _ hact ih =>
    obtain ⟨a, hG, ha⟩ := hact
    exact ih.tail ⟨a, h _ a hG, ha⟩

end Runs

-- ---------------------------------------------------------------------------
-- Runs of a function
-- ---------------------------------------------------------------------------

theorem repeat_keeps {I : σ → Prop} {f : σ → σ} (hf : ∀ s, I s → I (f s)) (h : I s) (n : Nat) :
    I (n.repeat f s) := by
  induction n with
  | zero => exact h
  | succ n ih => exact hf _ ih

/-- Turns taken side by side. -/
theorem repeat_rel {R : σ → τ → Prop} {f : σ → σ} {g : τ → τ}
    (hfg : ∀ s t, R s t → R (f s) (g t)) {t : τ} (h : R s t) (n : Nat) :
    R (n.repeat f s) (n.repeat g t) := by
  induction n with
  | zero => exact h
  | succ n ih => exact hfg _ _ ih

/-- What `f` gives at each act of a run of `next`, one after the other. -/
def along (next : σ → κ → σ) (f : σ → κ → List α) : σ → List κ → List α
  | _, [] => []
  | s, a :: acts => f s a ++ along next f (next s a) acts

/-- A relation between a state and one that acts lead to, and what `f` gives on the way. -/
theorem along_rel {next : σ → κ → σ} {f : σ → κ → List α} {R : σ → List κ → List α → σ → Prop}
    (hnil : ∀ s, R s [] [] s)
    (hcons : ∀ s a acts out t, R (next s a) acts out t → R s (a :: acts) (f s a ++ out) t)
    (s : σ) (acts : List κ) : R s acts (along next f s acts) (acts.foldl next s) := by
  induction acts generalizing s with
  | nil => exact hnil s
  | cons a acts ih => exact hcons s a acts _ _ (ih (next s a))

/-- What is given on the way is given at one of the acts. -/
theorem mem_along {next : σ → κ → σ} {f : σ → κ → List α} {s : σ} {acts : List κ} {x : α}
    (h : x ∈ along next f s acts) : ∃ t, ∃ a ∈ acts, x ∈ f t a := by
  induction acts generalizing s with
  | nil => cases h
  | cons a acts ih =>
    rcases List.mem_append.mp h with hx | hx
    · exact ⟨s, a, List.mem_cons_self, hx⟩
    · obtain ⟨t, b, hb, hx⟩ := ih hx
      exact ⟨t, b, List.mem_cons_of_mem _ hb, hx⟩

/-- Every act of a run meets `G` where it is taken. -/
def AllAlong (next : σ → κ → σ) (G : σ → κ → Prop) : σ → List κ → Prop
  | _, [] => True
  | s, a :: acts => G s a ∧ AllAlong next G (next s a) acts

theorem allAlong_iff {next : σ → κ → σ} {G : σ → κ → Prop} (s : σ) (acts : List κ) :
    AllAlong next G s acts ↔ ∀ pre a, pre ++ [a] <+: acts → G (pre.foldl next s) a := by
  induction acts generalizing s with
  | nil => exact iff_of_true trivial fun pre a h => by simp at h
  | cons b acts ih =>
    constructor
    · rintro ⟨hb, hacts⟩ pre a hpre
      cases pre with
      | nil =>
        obtain rfl := (List.cons_prefix_cons.mp hpre).1
        exact hb
      | cons c pre =>
        obtain ⟨rfl, hrest⟩ := List.cons_prefix_cons.mp hpre
        exact (ih _).mp hacts pre a hrest
    · intro h
      refine ⟨h [] b (by simp), (ih _).mpr fun pre a hpre => ?_⟩
      exact h (b :: pre) a (List.cons_prefix_cons.mpr ⟨rfl, hpre⟩)

theorem AllAlong.of_prefix {next : σ → κ → σ} {G : σ → κ → Prop} {s : σ} {pre acts : List κ}
    (h : AllAlong next G s acts) (hpre : pre <+: acts) : AllAlong next G s pre := by
  rw [allAlong_iff] at h ⊢
  exact fun front a hfront => h front a (hfront.trans hpre)

theorem AllAlong.after {next : σ → κ → σ} {G : σ → κ → Prop} {s : σ} {pre post : List κ}
    (h : AllAlong next G s (pre ++ post)) : AllAlong next G (pre.foldl next s) post := by
  induction pre generalizing s with
  | nil => exact h
  | cons a pre ih => exact ih h.2

theorem AllAlong.relates {next : σ → κ → σ} {G : σ → κ → Prop} {R : σ → σ → Prop}
    (hrefl : ∀ s, R s s) (htrans : ∀ r s t, R r s → R s t → R r t)
    (hstep : ∀ s a, G s a → R s (next s a)) {s : σ} {acts : List κ} (h : AllAlong next G s acts) :
    R s (acts.foldl next s) := by
  induction acts generalizing s with
  | nil => exact hrefl s
  | cons a acts ih => exact htrans _ _ _ (hstep s a h.1) (ih h.2)

/-- What each act of a run keeps, the run keeps. -/
theorem AllAlong.invariant {next : σ → κ → σ} {G : σ → κ → Prop} {P : σ → Prop}
    (hstep : ∀ s a, G s a → P s → P (next s a)) {s : σ} {acts : List κ} (h : AllAlong next G s acts)
    (hs : P s) : P (acts.foldl next s) :=
  h.relates (R := fun s t => P s → P t) (fun _ hs => hs) (fun _ _ _ h h' hs => h' (h hs)) hstep hs

/-- Where one act of the kind `A` keeps `P` just if it meets `G`, `P` holds all along a run of
such acts just if they all meet `G`. -/
theorem holds_along_iff {next : σ → κ → σ} {G : σ → κ → Prop} {A : κ → Prop} {I P : σ → Prop}
    (hI : ∀ s a, I s → I (next s a)) (hstep : ∀ s a, A a → I s → P s → (P (next s a) ↔ G s a)) {s : σ}
    (hs : I s) (hP : P s) {acts : List κ} (hacts : ∀ a ∈ acts, A a) :
    (∀ pre, pre <+: acts → P (pre.foldl next s)) ↔ AllAlong next G s acts := by
  induction acts generalizing s with
  | nil => exact iff_of_true (fun pre h => by rwa [List.prefix_nil.mp h]) trivial
  | cons a acts ih =>
    obtain ⟨hA, hrest⟩ := List.forall_mem_cons.mp hacts
    constructor
    · intro h
      have ha : P (next s a) := h [a] (by simp)
      refine ⟨(hstep s a hA hs hP).mp ha, (ih (hI s a hs) ha hrest).mp fun pre hpre => ?_⟩
      exact h (a :: pre) (List.cons_prefix_cons.mpr ⟨rfl, hpre⟩)
    · rintro ⟨ha, htail⟩ pre hpre
      cases pre with
      | nil => exact hP
      | cons b pre =>
        obtain ⟨rfl, hshort⟩ := List.cons_prefix_cons.mp hpre
        have hnext := (hstep s b hA hs hP).mpr ha
        exact (ih (hI s b hs) hnext hrest).mpr htail pre hshort

namespace Op

/-- Where `I` holds, a run of `m` that succeeds is a run of `R`, and keeps `I`. -/
def Traces (R : σ → σ → Prop) (I : σ → Prop) (m : Op σ ε α) : Prop :=
  ∀ s a t, I s → m.exec s = (.ok a, t) → R s t ∧ I t

namespace Traces

variable {R : σ → σ → Prop} {I : σ → Prop}

theorem pure (hR : ∀ s, R s s) (a : α) : Traces R I (Pure.pure a : Op σ ε α) := by
  intro s b t hs h
  obtain ⟨_, rfl⟩ := Prod.mk.inj h
  exact ⟨hR s, hs⟩

theorem throw (e : ε) : Traces R I (MonadExcept.throw e : Op σ ε α) := by
  intro s b t _ h
  cases h

theorem bind (htrans : ∀ r s t, R r s → R s t → R r t) {m : Op σ ε α} {f : α → Op σ ε β}
    (hm : Traces R I m) (hf : ∀ a, Traces R I (f a)) : Traces R I (m >>= f) := by
  intro s b t hs h
  obtain ⟨a, u, ha, hb⟩ := exec_bind_eq_ok.mp h
  obtain ⟨hsu, hu⟩ := hm s a u hs ha
  obtain ⟨hut, ht⟩ := hf a u b t hu hb
  exact ⟨htrans _ _ _ hsu hut, ht⟩

theorem guard {c : Prop} [Decidable c] {e : ε} {k : PUnit → Op σ ε α}
    (hk : Traces R I (k ⟨⟩)) :
    Traces R I (if c then MonadExcept.throw e >>= k else k ⟨⟩) := by
  split
  case isTrue =>
    intro s a t _ h
    cases h
  case isFalse => exact hk

theorem forM (hrefl : ∀ s, R s s) (htrans : ∀ r s t, R r s → R s t → R r t)
    {f : α → Op σ ε PUnit} {l : List α} (hf : ∀ a ∈ l, Traces R I (f a)) :
    Traces R I (l.forM f) := by
  induction l with
  | nil => exact pure hrefl _
  | cons a l ih =>
    exact bind htrans (hf a List.mem_cons_self) fun _ =>
      ih fun b hb => hf b (List.mem_cons_of_mem _ hb)

end Traces

end Op

end Lib
