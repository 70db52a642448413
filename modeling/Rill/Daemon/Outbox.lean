import Rill.Attach.Wire
import Rill.Daemon.Flush

/-!
# Outboxes slice by slice

A deque hands out its contents as two slices, cut anywhere, and the socket is
offered one of them. What it takes is counted in the slice and taken off the
front of the deque.
-/

namespace Rill.Daemon

open Lib Attach

/-- One turn of the loop: where the deque is cut, and what the write comes to. -/
structure Offer where
  cut : Nat
  write : Write
  deriving DecidableEq, Repr

structure Outbox where
  queued : List UInt8
  sent : List UInt8
  deriving DecidableEq, Repr

namespace Outbox

def empty : Outbox := ⟨[], []⟩

def enqueue (o : Outbox) (bytes : List UInt8) : Outbox := { o with queued := o.queued ++ bytes }

/-- Offers what `pick` makes of the two slices, until there is nothing left, the socket
takes no more, or it fails; whether it did not fail. -/
def offerAll (pick : List UInt8 → List UInt8 → List UInt8) :
    List Offer → Outbox → Bool × Outbox
  | [], o => (true, o)
  | offer :: rest, o =>
    if o.queued.isEmpty then (true, o)
    else
      let slice := pick (o.queued.take offer.cut) (o.queued.drop offer.cut)
      match offer.write with
      | .accept n =>
        let n := min n slice.length
        if n = 0 then (true, o)
        else offerAll pick rest ⟨o.queued.drop n, o.sent ++ slice.take n⟩
      | .wouldBlock => (true, o)
      | .failed => (false, o)

def writeOutbox : List Offer → Outbox → Bool × Outbox :=
  offerAll fun front back => if !front.isEmpty then front else back

inductive Act
  | enqueue (bytes : List UInt8)
  | flush (offers : List Offer)
  deriving DecidableEq, Repr

/-- `flush` is the loop that the owner of the outbox has. -/
def act (flush : List Offer → Outbox → Bool × Outbox) (o : Outbox) : Act → Outbox
  | .enqueue bytes => o.enqueue bytes
  | .flush offers => (flush offers o).2

def after (flush : List Offer → Outbox → Bool × Outbox) (acts : List Act) : Outbox :=
  acts.foldl (act flush) empty

def enqueued (acts : List Act) : List UInt8 :=
  acts.flatMap fun
    | .enqueue bytes => bytes
    | .flush _ => []

-- ---------------------------------------------------------------------------
-- No byte lost, repeated or moved
-- ---------------------------------------------------------------------------

/-- What is offered is at the front of the deque. -/
def Fronts (pick : List UInt8 → List UInt8 → List UInt8) : Prop :=
  ∀ front back, pick front back <+: front ++ back

theorem take_pick {pick : List UInt8 → List UInt8 → List UInt8} (hpick : Fronts pick)
    (queued : List UInt8) (cut n : Nat) :
    (pick (queued.take cut) (queued.drop cut)).take
        (min n (pick (queued.take cut) (queued.drop cut)).length) =
      queued.take (min n (pick (queued.take cut) (queued.drop cut)).length) := by
  have hfront := hpick (queued.take cut) (queued.drop cut)
  rw [List.take_append_drop] at hfront
  obtain ⟨more, hmore⟩ := hfront
  generalize pick (queued.take cut) (queued.drop cut) = slice at hmore ⊢
  rw [← hmore, List.take_append_of_le_length (Nat.min_le_right _ _)]

theorem offerAll_bytes {pick : List UInt8 → List UInt8 → List UInt8} (hpick : Fronts pick)
    (offers : List Offer) (o : Outbox) :
    (offerAll pick offers o).2.sent ++ (offerAll pick offers o).2.queued = o.sent ++ o.queued := by
  induction offers generalizing o with
  | nil => rfl
  | cons offer rest ih =>
    unfold offerAll
    split
    case isTrue => rfl
    case isFalse =>
      cases offer.write with
      | accept n =>
        dsimp only
        split
        case isTrue => rfl
        case isFalse =>
          rw [ih, take_pick hpick]
          dsimp only
          rw [List.append_assoc, List.take_append_drop]
      | wouldBlock => rfl
      | failed => rfl

theorem after_bytes {flush : List Offer → Outbox → Bool × Outbox}
    (hflush : ∀ offers o, (flush offers o).2.sent ++ (flush offers o).2.queued = o.sent ++ o.queued)
    (acts : List Act) : (after flush acts).sent ++ (after flush acts).queued = enqueued acts := by
  have hrun : ∀ (acts : List Act) (o : Outbox),
      (acts.foldl (act flush) o).sent ++ (acts.foldl (act flush) o).queued =
        o.sent ++ o.queued ++ enqueued acts := by
    intro acts
    induction acts with
    | nil => exact fun o => (List.append_nil _).symm
    | cons a acts ih =>
      intro o
      rw [List.foldl_cons, ih]
      cases a with
      | enqueue bytes =>
        have hall : enqueued (.enqueue bytes :: acts) = bytes ++ enqueued acts := rfl
        rw [hall]
        simp only [act, enqueue, List.append_assoc]
      | flush offers =>
        have hall : enqueued (.flush offers :: acts) = enqueued acts := rfl
        rw [hall, act, hflush]
  exact hrun acts empty

/-- The loop on the deque is the loop on its contents. -/
theorem offerAll_refines {pick : List UInt8 → List UInt8 → List UInt8} (hpick : Fronts pick)
    (offers : List Offer) (o : Outbox) :
    ∃ writes left, Client.writeLoop writes o.queued o.sent =
      ((offerAll pick offers o).1, left, (offerAll pick offers o).2.queued,
        (offerAll pick offers o).2.sent) := by
  induction offers generalizing o with
  | nil => exact ⟨[], [], rfl⟩
  | cons offer rest ih =>
    unfold offerAll
    split
    case isTrue => exact ⟨[], [], rfl⟩
    case isFalse hqueued =>
      cases offer.write with
      | wouldBlock => exact ⟨[], [], rfl⟩
      | failed =>
        refine ⟨[.failed], [], ?_⟩
        rw [Client.writeLoop, if_neg hqueued]
      | accept n =>
        dsimp only
        split
        case isTrue => exact ⟨[], [], rfl⟩
        case isFalse hn =>
          rw [take_pick hpick]
          generalize min n (pick (o.queued.take offer.cut) (o.queued.drop offer.cut)).length = k
            at hn ⊢
          obtain ⟨writes, left, hloop⟩ := ih ⟨o.queued.drop k, o.sent ++ o.queued.take k⟩
          refine ⟨.accept k :: writes, left, ?_⟩
          rw [Client.writeLoop, if_neg hqueued, if_neg hn]
          exact hloop

theorem fronts_writeOutbox :
    Fronts fun front back => if !front.isEmpty then front else back := by
  intro front back
  cases front with
  | nil => exact List.prefix_rfl
  | cons b front => exact List.prefix_append (b :: front) back

theorem writeOutbox_refines (offers : List Offer) (o : Outbox) :
    ∃ writes left, Client.writeLoop writes o.queued o.sent =
      ((writeOutbox offers o).1, left, (writeOutbox offers o).2.queued,
        (writeOutbox offers o).2.sent) := offerAll_refines fronts_writeOutbox offers o

-- ---------------------------------------------------------------------------
-- Frames
-- ---------------------------------------------------------------------------

/-- The peer, reading what was accepted in any pieces, has the first of the frames, whole
and in order, and all of them once nothing is queued. -/
def Arrive (o : Outbox) (frames : List Frame) : Prop :=
  ∀ pieces : List (List UInt8), pieces.flatten = o.sent →
    Framing.failed (Decoder.new.pushes pieces).1 = false ∧
      Framing.delivered (Decoder.new.pushes pieces).1 <+: frames.map Frame.received ∧
      (o.queued = [] → Framing.delivered (Decoder.new.pushes pieces).1 = frames.map Frame.received)

theorem arrive_of_bytes {o : Outbox} {frames : List Frame} (hfits : ∀ f ∈ frames, f.Fits)
    (h : o.sent ++ o.queued = frames.flatMap Frame.wire) : o.Arrive frames := by
  intro pieces hpieces
  have hreads := Decoder.reads_wires hfits []
  rw [List.append_nil, ← h, ← hpieces] at hreads
  rw [Decoder.pushes_new]
  exact Framing.pushes_prefix Decoder.front_nil hreads

end Outbox

end Rill.Daemon
