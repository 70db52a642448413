import Rill.Lib.Framing

/-!
# Pipes

Whole frames on their way over a stream: what the reader has of a frame that is
not complete, what the stream has taken and the reader has not, and what the
sender still has to write.
-/

namespace Lib.Framing

variable {α ε φ : Type} {F : Framing α ε φ}

/-- All that is on its way is the frames `fs`. `sent` is what the stream has ever taken, and
`done` how much of that was read. -/
structure Pipe (F : Framing α ε φ) (buf sent : List α) (done : Nat) (outbox : List α)
    (fs : List φ) : Prop where
  done_le : done ≤ sent.length
  reads : F.Reads (buf ++ (sent.drop done ++ outbox)) fs []
  wait : F.front buf = .wait

namespace Pipe

variable {buf sent outbox : List α} {done : Nat} {fs : List φ}

theorem empty (hempty : F.front [] = .wait) : F.Pipe [] [] 0 [] [] := ⟨Nat.le_refl 0, .nil, hempty⟩

theorem push_eq (h : F.Pipe buf sent done outbox fs) (hempty : F.front [] = .wait) :
    F.push [] (buf ++ (sent.drop done ++ outbox)) = (.ok fs, []) :=
  push_wait h.reads hempty

/-- The sender has more to write, or the stream has taken more. -/
theorem send {sent' outbox' more : List α} {gs : List φ} (h : F.Pipe buf sent done outbox fs)
    (hgrows : sent <+: sent') (hbytes : sent' ++ outbox' = sent ++ outbox ++ more)
    (hmore : F.Reads more gs []) : F.Pipe buf sent' done outbox' (fs ++ gs) where
  done_le := Nat.le_trans h.done_le hgrows.length_le
  reads := by
    obtain ⟨tail, rfl⟩ := hgrows
    have htail : tail ++ outbox' = outbox ++ more := by
      rw [List.append_assoc, List.append_assoc] at hbytes
      exact List.append_cancel_left hbytes
    have hall : buf ++ ((sent ++ tail).drop done ++ outbox') =
        buf ++ (sent.drop done ++ outbox) ++ more := by
      rw [List.drop_append_of_le_length h.done_le, List.append_assoc, htail]
      simp only [List.append_assoc]
    rw [hall]
    exact (h.reads.append more).trans hmore
  wait := h.wait

/-- A read brings the reader the frames it completes, and never a malformed one. -/
theorem read {piece : List α} (h : F.Pipe buf sent done outbox fs) (hempty : F.front [] = .wait)
    (hpiece : piece <+: sent.drop done) :
    ∃ gs hs buf', fs = gs ++ hs ∧ F.push buf piece = (.ok gs, buf') ∧
      F.Pipe buf' sent (done + piece.length) outbox hs := by
  obtain ⟨tail, htail⟩ := hpiece
  have hdrop : sent.drop (done + piece.length) = tail := by
    rw [← List.drop_drop, ← htail, List.drop_left]
  have hall : buf ++ (sent.drop done ++ outbox) = buf ++ piece ++ (tail ++ outbox) := by
    rw [← htail]
    simp only [List.append_assoc]
  have hend : ∀ f rest, F.front [] ≠ .frame f rest := by simp [hempty]
  have hreads := h.reads
  rw [hall] at hreads
  obtain ⟨gs, buf', hgs, hwait, hpush⟩ | ⟨gs, buf', e, left, hgs, hfail, -⟩ := F.push_cases buf piece
  · obtain ⟨hs, rfl, hrest⟩ := (hgs.append (tail ++ outbox)).split hreads hend
    refine ⟨gs, hs, buf', rfl, hpush, ?_, ?_, hwait⟩
    · have hlen := congrArg List.length htail
      rw [List.length_append, List.length_drop] at hlen
      have hle := h.done_le
      omega
    · rw [hdrop]
      exact hrest
  · -- What the whole of it comes to has no malformed frame.
    obtain ⟨hs, -, hrest⟩ := (hgs.append (tail ++ outbox)).split hreads hend
    have hstuck := F.fail_append hfail (tail ++ outbox)
    generalize buf' ++ (tail ++ outbox) = rest at hrest hstuck
    cases hrest with
    | nil =>
      rw [hempty] at hstuck
      cases hstuck
    | cons hfront =>
      rw [hfront] at hstuck
      cases hstuck

end Pipe

end Lib.Framing
