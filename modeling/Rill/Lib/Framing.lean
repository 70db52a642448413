/-!
# Framed streams

A reader that takes frames off the front of a buffer, and stops where a frame
is not complete or is malformed. A stream that is pushed in pieces comes to the
same frames however it is cut, but for what a failing push has already read.
-/

namespace Lib

variable {α ε φ : Type}

/-- What is at the front of a buffer: a frame and what follows it, a malformed
one and what the reader leaves of the buffer, or not enough to say. -/
inductive Front (α ε φ : Type)
  | wait
  | fail (e : ε) (left : List α)
  | frame (f : φ) (rest : List α)

/-- A frame takes something, and what has been told from the front of a buffer
stays told when more comes in. -/
structure Framing (α ε φ : Type) where
  front : List α → Front α ε φ
  shrinks : front buf = .frame f rest → rest.length < buf.length
  frame_append : front buf = .frame f rest → ∀ more, front (buf ++ more) = .frame f (rest ++ more)
  fail_append : front buf = .fail e left → ∀ more, front (buf ++ more) = .fail e (left ++ more)

namespace Framing

variable {F : Framing α ε φ}

/-- The frames at the front of `buf`, and the buffer that is left; those read
before a malformed one are lost with it. -/
def drain (F : Framing α ε φ) : Nat → List α → Except ε (List φ) × List α
  | 0, buf => (.ok [], buf)
  | turns + 1, buf =>
    match F.front buf with
    | .wait => (.ok [], buf)
    | .fail e left => (.error e, left)
    | .frame f rest => ((F.drain turns rest).1.map (f :: ·), (F.drain turns rest).2)

/-- Every frame takes something, so as many turns as the buffer is long are enough. -/
def push (F : Framing α ε φ) (buf piece : List α) : Except ε (List φ) × List α :=
  F.drain ((buf ++ piece).length + 1) (buf ++ piece)

/-- What each of a row of pushes returns, and the buffer after the last. -/
def pushes (F : Framing α ε φ) (buf : List α) :
    List (List α) → List (Except ε (List φ)) × List α
  | [] => ([], buf)
  | piece :: pieces =>
    ((F.push buf piece).1 :: (F.pushes (F.push buf piece).2 pieces).1,
      (F.pushes (F.push buf piece).2 pieces).2)

/-- The frames returned before the first error. -/
def delivered : List (Except ε (List φ)) → List φ
  | .ok frames :: results => frames ++ delivered results
  | .error _ :: _ | [] => []

def failed (results : List (Except ε (List φ))) : Bool := results.any fun r => !r.isOk

def sinceError (results : List (Except ε (List φ))) : List (Except ε (List φ)) :=
  results.dropWhile Except.isOk

-- ---------------------------------------------------------------------------
-- What is in front of what
-- ---------------------------------------------------------------------------

/-- `buf` is the frames `fs` and then `rest`. -/
inductive Reads (F : Framing α ε φ) : List α → List φ → List α → Prop
  | nil : Reads F buf [] buf
  | cons : F.front buf = .frame f rest → Reads F rest fs t → Reads F buf (f :: fs) t

namespace Reads

theorem append (h : F.Reads buf fs t) (more : List α) : F.Reads (buf ++ more) fs (t ++ more) := by
  induction h with
  | nil => exact .nil
  | cons hfront _ ih => exact .cons (F.frame_append hfront more) ih

theorem trans (h : F.Reads buf fs t) (h' : F.Reads t gs u) : F.Reads buf (fs ++ gs) u := by
  induction h with
  | nil => exact h'
  | cons hfront _ ih => exact .cons hfront (ih h')

/-- Where no frame is next, two readings of one buffer have come to the same. -/
theorem unique (h : F.Reads buf fs t) (h' : F.Reads buf gs u)
    (ht : ∀ f rest, F.front t ≠ .frame f rest) (hu : ∀ f rest, F.front u ≠ .frame f rest) :
    fs = gs ∧ t = u := by
  induction h generalizing gs with
  | nil =>
    cases h' with
    | nil => exact ⟨rfl, rfl⟩
    | cons hfront => exact absurd hfront (ht _ _)
  | cons hfront _ ih =>
    cases h' with
    | nil => exact absurd hfront (hu _ _)
    | cons hfront' htail =>
      rw [hfront] at hfront'
      obtain ⟨rfl, rfl⟩ := Front.frame.inj hfront'
      obtain ⟨rfl, rfl⟩ := ih htail ht
      exact ⟨rfl, rfl⟩

/-- A reading that goes as far as frames go goes on from where another has come. -/
theorem split (h : F.Reads buf gs u) (h' : F.Reads buf fs t)
    (ht : ∀ f rest, F.front t ≠ .frame f rest) : ∃ hs, fs = gs ++ hs ∧ F.Reads u hs t := by
  induction h generalizing fs with
  | nil => exact ⟨fs, rfl, h'⟩
  | cons hfront _ ih =>
    cases h' with
    | nil => exact absurd hfront (ht _ _)
    | cons hfront' htail =>
      rw [hfront] at hfront'
      obtain ⟨rfl, rfl⟩ := Front.frame.inj hfront'
      obtain ⟨hs, rfl, hreads⟩ := ih htail
      exact ⟨hs, rfl, hreads⟩

end Reads

/-- All the frames there are, up to a malformed one or to one that is not complete. -/
theorem exists_reads (F : Framing α ε φ) (buf : List α) :
    ∃ fs t, F.Reads buf fs t ∧ (F.front t = .wait ∨ ∃ e left, F.front t = .fail e left) := by
  induction hn : buf.length using Nat.strongRecOn generalizing buf with
  | ind n ih =>
    cases hfront : F.front buf with
    | wait => exact ⟨[], buf, .nil, .inl hfront⟩
    | fail e left => exact ⟨[], buf, .nil, .inr ⟨e, left, hfront⟩⟩
    | frame f rest =>
      obtain ⟨fs, t, hreads, ht⟩ := ih rest.length (hn ▸ F.shrinks hfront) rest rfl
      exact ⟨f :: fs, t, .cons hfront hreads, ht⟩

theorem drain_wait (h : F.Reads buf fs t) (ht : F.front t = .wait) {turns : Nat}
    (hturns : buf.length < turns) : F.drain turns buf = (.ok fs, t) := by
  induction h generalizing turns with
  | nil =>
    cases turns with
    | zero => exact absurd hturns (Nat.not_lt_zero _)
    | succ turns => simp only [drain, ht]
  | cons hfront _ ih =>
    cases turns with
    | zero => exact absurd hturns (Nat.not_lt_zero _)
    | succ turns =>
      have hless := F.shrinks hfront
      simp only [drain, hfront, ih ht (Nat.lt_of_lt_of_le hless (Nat.le_of_lt_succ hturns))]
      rfl

theorem drain_fail (h : F.Reads buf fs t) (ht : F.front t = .fail e left) {turns : Nat}
    (hturns : buf.length < turns) : F.drain turns buf = (.error e, left) := by
  induction h generalizing turns with
  | nil =>
    cases turns with
    | zero => exact absurd hturns (Nat.not_lt_zero _)
    | succ turns => simp only [drain, ht]
  | cons hfront _ ih =>
    cases turns with
    | zero => exact absurd hturns (Nat.not_lt_zero _)
    | succ turns =>
      have hless := F.shrinks hfront
      simp only [drain, hfront, ih ht (Nat.lt_of_lt_of_le hless (Nat.le_of_lt_succ hturns))]
      rfl

theorem push_wait (h : F.Reads (buf ++ piece) fs t) (ht : F.front t = .wait) :
    F.push buf piece = (.ok fs, t) := drain_wait h ht (Nat.lt_succ_self _)

theorem push_fail (h : F.Reads (buf ++ piece) fs t) (ht : F.front t = .fail e left) :
    F.push buf piece = (.error e, left) := drain_fail h ht (Nat.lt_succ_self _)

theorem push_cases (F : Framing α ε φ) (buf piece : List α) :
    (∃ fs t, F.Reads (buf ++ piece) fs t ∧ F.front t = .wait ∧ F.push buf piece = (.ok fs, t)) ∨
      ∃ fs t e left, F.Reads (buf ++ piece) fs t ∧ F.front t = .fail e left ∧
        F.push buf piece = (.error e, left) := by
  obtain ⟨fs, t, hreads, ht | ⟨e, left, ht⟩⟩ := F.exists_reads (buf ++ piece)
  · exact .inl ⟨fs, t, hreads, ht, push_wait hreads ht⟩
  · exact .inr ⟨fs, t, e, left, hreads, ht, push_fail hreads ht⟩

-- ---------------------------------------------------------------------------
-- A stream in pieces
-- ---------------------------------------------------------------------------

/-- A stream with no malformed frame: every cutting delivers its frames and
ends with the same buffer. -/
theorem pushes_wait {pieces : List (List α)} (hbuf : F.front buf = .wait)
    (h : F.Reads (buf ++ pieces.flatten) fs t) (ht : F.front t = .wait) :
    failed (F.pushes buf pieces).1 = false ∧ delivered (F.pushes buf pieces).1 = fs ∧
      (F.pushes buf pieces).2 = t := by
  induction pieces generalizing buf fs with
  | nil =>
    rw [List.flatten_nil, List.append_nil] at h
    obtain ⟨rfl, rfl⟩ := h.unique .nil (by simp [ht]) (by simp [hbuf])
    exact ⟨rfl, rfl, rfl⟩
  | cons piece pieces ih =>
    rw [List.flatten_cons, ← List.append_assoc] at h
    obtain ⟨gs, u, hreads, hu, hpush⟩ | ⟨gs, u, e, left, hreads, hu, hpush⟩ := F.push_cases buf piece
    · obtain ⟨ks, v, hreads', hv | ⟨e, left, hv⟩⟩ := F.exists_reads (u ++ pieces.flatten)
      · have hboth := (hreads.append pieces.flatten).trans hreads'
        obtain ⟨rfl, rfl⟩ := h.unique hboth (by simp [ht]) (by simp [hv])
        obtain ⟨hok, hframes, hend⟩ := ih hu hreads'
        simp only [pushes, hpush, failed, List.any_cons, delivered] at hok hframes hend ⊢
        exact ⟨by simpa [Except.isOk, Except.toBool] using hok, by rw [hframes], hend⟩
      · have hboth := (hreads.append pieces.flatten).trans hreads'
        obtain ⟨-, rfl⟩ := h.unique hboth (by simp [ht]) (by simp [hv])
        rw [ht] at hv
        cases hv
    · have hfail := F.fail_append hu pieces.flatten
      obtain ⟨-, rfl⟩ := h.unique (hreads.append _) (by simp [ht]) (by simp [hfail])
      rw [ht] at hfail
      cases hfail

/-- The first part of a stream of whole frames: every cutting delivers the first of them. -/
theorem pushes_prefix {pieces : List (List α)} {more : List α} (hempty : F.front [] = .wait)
    (h : F.Reads (pieces.flatten ++ more) fs []) :
    failed (F.pushes [] pieces).1 = false ∧ delivered (F.pushes [] pieces).1 <+: fs ∧
      (more = [] → delivered (F.pushes [] pieces).1 = fs) := by
  have hend : ∀ f rest, F.front [] ≠ .frame f rest := by simp [hempty]
  obtain ⟨gs, t, hreads, ht | ⟨e, left, ht⟩⟩ := F.exists_reads pieces.flatten
  · obtain ⟨hok, hframes, -⟩ := pushes_wait hempty hreads ht
    obtain ⟨hs, rfl, -⟩ := (hreads.append more).split h hend
    rw [hframes]
    refine ⟨hok, List.prefix_append gs hs, ?_⟩
    rintro rfl
    rw [List.append_nil] at h
    exact (hreads.unique h (by simp [ht]) hend).1
  · -- a malformed frame stays malformed, but the whole stream has none
    have hfail := F.fail_append ht more
    obtain ⟨-, hnil⟩ := (hreads.append more).unique h (by simp [hfail]) hend
    rw [hnil, hempty] at hfail
    cases hfail

/-- A stream with a malformed frame: every cutting comes to an error, having
delivered no frame but those in front of it. -/
theorem pushes_fail {pieces : List (List α)} (hbuf : F.front buf = .wait)
    (h : F.Reads (buf ++ pieces.flatten) fs t) (ht : F.front t = .fail e left) :
    failed (F.pushes buf pieces).1 = true ∧ delivered (F.pushes buf pieces).1 <+: fs := by
  induction pieces generalizing buf fs with
  | nil =>
    rw [List.flatten_nil, List.append_nil] at h
    obtain ⟨-, rfl⟩ := h.unique .nil (by simp [ht]) (by simp [hbuf])
    rw [ht] at hbuf
    cases hbuf
  | cons piece pieces ih =>
    rw [List.flatten_cons, ← List.append_assoc] at h
    obtain ⟨gs, u, hreads, hu, hpush⟩ | ⟨gs, u, e', left', hreads, hu, hpush⟩ := F.push_cases buf piece
    · obtain ⟨ks, v, hreads', hv | ⟨e', left', hv⟩⟩ := F.exists_reads (u ++ pieces.flatten)
      · have hboth := (hreads.append pieces.flatten).trans hreads'
        obtain ⟨-, rfl⟩ := h.unique hboth (by simp [ht]) (by simp [hv])
        rw [ht] at hv
        cases hv
      · have hboth := (hreads.append pieces.flatten).trans hreads'
        obtain ⟨rfl, rfl⟩ := h.unique hboth (by simp [ht]) (by simp [hv])
        obtain ⟨hfailed, hframes⟩ := ih hu hreads'
        simp only [pushes, hpush, failed, List.any_cons, delivered] at hfailed hframes ⊢
        exact ⟨by rw [hfailed, Bool.or_true], (List.prefix_append_right_inj gs).mpr hframes⟩
    · simp only [pushes, hpush, failed, List.any_cons, delivered]
      exact ⟨rfl, List.nil_prefix⟩

/-- A buffer that a failing push leaves as it was fails every push after it. -/
theorem pushes_stuck {pieces : List (List α)} (h : F.front buf = .fail e buf) :
    ∀ r ∈ (F.pushes buf pieces).1, r = .error e := by
  induction pieces generalizing buf with
  | nil => exact fun r hr => absurd hr List.not_mem_nil
  | cons piece pieces ih =>
    have hnext := F.fail_append h piece
    have hpush : F.push buf piece = (.error e, buf ++ piece) := push_fail .nil hnext
    rw [pushes, hpush]
    exact List.forall_mem_cons.mpr ⟨rfl, ih hnext⟩

/-- With a malformed frame that is left in the buffer, nothing is returned any
more from the first error on. -/
theorem sinceError_stuck {pieces later : List (List α)} (hbuf : F.front buf = .wait)
    (h : F.Reads (buf ++ pieces.flatten) fs t) (ht : F.front t = .fail e t) :
    ∀ r ∈ sinceError (F.pushes buf (pieces ++ later)).1, r = .error e := by
  induction pieces generalizing buf fs with
  | nil =>
    rw [List.flatten_nil, List.append_nil] at h
    obtain ⟨-, rfl⟩ := h.unique .nil (by simp [ht]) (by simp [hbuf])
    rw [ht] at hbuf
    cases hbuf
  | cons piece pieces ih =>
    rw [List.flatten_cons, ← List.append_assoc] at h
    rw [List.cons_append]
    obtain ⟨gs, u, hreads, hu, hpush⟩ | ⟨gs, u, e', left, hreads, hu, hpush⟩ := F.push_cases buf piece
    · obtain ⟨ks, v, hreads', hv⟩ := F.exists_reads (u ++ pieces.flatten)
      have hboth := (hreads.append pieces.flatten).trans hreads'
      obtain ⟨rfl, rfl⟩ := h.unique hboth (by simp [ht]) (by
        rcases hv with hv | ⟨e', left, hv⟩
        · simp [hv]
        · simp [hv])
      simp only [pushes, hpush]
      exact ih hu hreads'
    · -- this push fails: what it leaves is what the whole stream leaves
      have hfail := F.fail_append hu pieces.flatten
      obtain ⟨-, rfl⟩ := h.unique (hreads.append _) (by simp [ht]) (by simp [hfail])
      rw [hfail] at ht
      obtain ⟨rfl, hleft⟩ := Front.fail.inj ht
      obtain rfl := List.append_cancel_right hleft
      simp only [pushes, hpush]
      exact List.forall_mem_cons.mpr ⟨rfl, pushes_stuck hu⟩

end Framing

end Lib
