import Rill.Lib.Op

/-!
# Redelivery

What is delivered at least once: later copies of an element change nothing when
the first one settled how it is judged.
-/

namespace Lib

variable {σ ε α : Type}

/-- `ds` is `es` with copies of elements put in again, anywhere after the element. -/
inductive Redelivers (es : List α) : List α → Prop
  | refl : Redelivers es es
  | again {pre mid post : List α} {a : α} (h : Redelivers es (pre ++ a :: mid ++ post)) :
      Redelivers es (pre ++ a :: mid ++ a :: post)

/-- Deliveries one after the other, whether they are accepted or not. -/
def deliverAll (deliver : α → Op σ ε Unit) (s : σ) (es : List α) : σ :=
  es.foldl (fun s a => ((deliver a).exec s).2) s

/-- `a` is accepted and changes nothing. -/
def Takes (deliver : α → Op σ ε Unit) (s : σ) (a : α) : Prop := (deliver a).exec s = (.ok (), s)

/-- `a` is rejected and changes nothing. -/
def Refuses (deliver : α → Op σ ε Unit) (s : σ) (a : α) : Prop :=
  ∃ e, (deliver a).exec s = (.error e, s)

/-- A delivery settles how its element is judged from then on. -/
structure Settles (deliver : α → Op σ ε Unit) : Prop where
  settles : ∀ s a, (((deliver a).exec s).1 = .ok () ∧ Takes deliver ((deliver a).exec s).2 a) ∨
    Refuses deliver s a
  takes : ∀ s a b, Takes deliver s a → Takes deliver ((deliver b).exec s).2 a
  refuses : ∀ s a b, Refuses deliver s a → Refuses deliver ((deliver b).exec s).2 a

variable {deliver : α → Op σ ε Unit}

@[simp] theorem deliverAll_cons (s : σ) (a : α) (es : List α) :
    deliverAll deliver s (a :: es) = deliverAll deliver ((deliver a).exec s).2 es := rfl

theorem deliverAll_append (s : σ) (es ds : List α) :
    deliverAll deliver s (es ++ ds) = deliverAll deliver (deliverAll deliver s es) ds :=
  List.foldl_append

theorem deliverAll_invariant {I : σ → Prop} (hstep : ∀ s a, I s → I ((deliver a).exec s).2)
    (hs : I s) (es : List α) : I (deliverAll deliver s es) := by
  induction es generalizing s with
  | nil => exact hs
  | cons a es ih => exact ih (hstep s a hs)

namespace Settles

theorem takes_all (h : Settles deliver) (hs : Takes deliver s a) (es : List α) :
    Takes deliver (deliverAll deliver s es) a :=
  deliverAll_invariant (I := fun s => Takes deliver s a) (fun s b hs => h.takes s a b hs) hs es

theorem refuses_all (h : Settles deliver) (hs : Refuses deliver s a) (es : List α) :
    Refuses deliver (deliverAll deliver s es) a :=
  deliverAll_invariant (I := fun s => Refuses deliver s a) (fun s b hs => h.refuses s a b hs) hs es

/-- A copy is judged as the first one was, and leaves the state as it is. -/
theorem copy (h : Settles deliver) (s : σ) (pre : List α) (a : α) (mid : List α) :
    (((deliver a).exec (deliverAll deliver s pre)).1 = .ok () ∧
        Takes deliver (deliverAll deliver s (pre ++ a :: mid)) a) ∨
      (((deliver a).exec (deliverAll deliver s pre)).1 ≠ .ok () ∧
        Refuses deliver (deliverAll deliver s (pre ++ a :: mid)) a) := by
  rw [deliverAll_append, deliverAll_cons]
  obtain ⟨hok, htakes⟩ | hrefuses := h.settles (deliverAll deliver s pre) a
  · exact .inl ⟨hok, h.takes_all htakes mid⟩
  · obtain ⟨e, he⟩ := hrefuses
    rw [he]
    exact .inr ⟨nofun, h.refuses_all ⟨e, he⟩ mid⟩

theorem copy_state (h : Settles deliver) (s : σ) (pre : List α) (a : α) (mid : List α) :
    ((deliver a).exec (deliverAll deliver s (pre ++ a :: mid))).2 =
      deliverAll deliver s (pre ++ a :: mid) := by
  obtain ⟨-, htakes⟩ | ⟨-, e, he⟩ := h.copy s pre a mid
  · rw [htakes]
  · rw [he]

theorem redelivers (h : Settles deliver) (s : σ) {es ds : List α} (hds : Redelivers es ds) :
    deliverAll deliver s ds = deliverAll deliver s es := by
  induction hds with
  | refl => rfl
  | @again pre mid post a _ ih =>
    rw [← ih, deliverAll_append s (pre ++ a :: mid), deliverAll_append s (pre ++ a :: mid),
      deliverAll_cons, h.copy_state]

theorem copies (h : Settles deliver) (s : σ) (pre : List α) (a : α) (mid : List α) :
    ((deliver a).exec (deliverAll deliver s pre)).1 = .ok () ↔
      ((deliver a).exec (deliverAll deliver s (pre ++ a :: mid))).1 = .ok () := by
  obtain ⟨hok, htakes⟩ | ⟨hne, e, he⟩ := h.copy s pre a mid
  · rw [htakes]
    exact iff_of_true hok rfl
  · rw [he]
    exact iff_of_false hne nofun

end Settles

end Lib
