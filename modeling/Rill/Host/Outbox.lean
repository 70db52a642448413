import Rill.Daemon.Outbox

/-!
# The host's outbox

The host offers the front slice as the daemon does, and all there is when the
front slice is empty.
-/

namespace Rill.Host

open Lib Attach Daemon

def flushOutbox : List Offer → Outbox → Bool × Outbox :=
  Outbox.offerAll fun front back => if front.isEmpty then front ++ back else front

theorem fronts_flushOutbox :
    Outbox.Fronts fun front back => if front.isEmpty then front ++ back else front := by
  intro front back
  cases front with
  | nil => exact List.prefix_rfl
  | cons b front => exact List.prefix_append (b :: front) back

/-- Whatever the sockets accept, at either end. -/
theorem outboxes_exact (acts : List Outbox.Act) :
    (Outbox.after Outbox.writeOutbox acts).sent ++ (Outbox.after Outbox.writeOutbox acts).queued =
        Outbox.enqueued acts ∧
      (Outbox.after flushOutbox acts).sent ++ (Outbox.after flushOutbox acts).queued =
        Outbox.enqueued acts ∧
      ∀ frames : List Frame, (∀ f ∈ frames, f.Fits) →
        Outbox.enqueued acts = frames.flatMap Frame.wire →
          (Outbox.after Outbox.writeOutbox acts).Arrive frames ∧
            (Outbox.after flushOutbox acts).Arrive frames := by
  have hwrite := Outbox.after_bytes (Outbox.offerAll_bytes Outbox.fronts_writeOutbox) acts
  have hflush := Outbox.after_bytes (Outbox.offerAll_bytes fronts_flushOutbox) acts
  refine ⟨hwrite, hflush, fun frames hfits hframes => ⟨?_, ?_⟩⟩
  · exact Outbox.arrive_of_bytes hfits (hwrite.trans hframes)
  · exact Outbox.arrive_of_bytes hfits (hflush.trans hframes)

end Rill.Host
