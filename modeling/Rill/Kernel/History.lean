import Rill.Kernel.Session

/-!
# What the history keeps

The ring against the stream that was appended to it: `Holds`. Offsets are those
of the stream, so a checkpoint is continued with exactly the bytes after it, or
not at all.
-/

namespace Rill.Kernel

open Lib

namespace ByteRing

def endOffset (r : ByteRing) : Nat := r.stop

/-- The bytes from the offset `start` on, if all of them are retained. -/
def deltasAfter (r : ByteRing) (start : Nat) : Except Error (List UInt8) :=
  if start < r.retainedBase then .error .checkpointEvicted
  else if start > r.stop then .error .checkpointEvicted
  else .ok (r.data.drop (start - r.retainedBase))

/-- `r` has been appended `stream`, and keeps the end of it. -/
structure Holds (r : ByteRing) (stream : List UInt8) : Prop where
  cap_pos : 0 < r.cap
  data : r.data = stream.drop (stream.length - r.cap)
  stop : r.stop = stream.length
  base : r.retainedBase = stream.length - r.data.length

theorem append_nil (r : ByteRing) : r.append [] = r := rfl

theorem append_of_ne_nil (r : ByteRing) {bytes : List UInt8} (h : bytes ≠ []) :
    r.append bytes =
      let stop := min (r.stop + bytes.length) u64Max
      let data :=
        if bytes.length ≥ r.cap then bytes.drop (bytes.length - r.cap)
        else r.data.drop (r.data.length + bytes.length - r.cap) ++ bytes
      { r with data, stop, retainedBase := stop - data.length } := by
  rw [append, if_neg (by simpa using h)]

@[simp] theorem cap_append (r : ByteRing) (bytes : List UInt8) : (r.append bytes).cap = r.cap := by
  unfold append
  split
  case isTrue => rfl
  case isFalse => rfl

theorem cap_foldl_append (chunks : List (List UInt8)) (r : ByteRing) :
    (chunks.foldl append r).cap = r.cap := by
  induction chunks generalizing r with
  | nil => rfl
  | cons chunk chunks ih => exact (ih (r.append chunk)).trans (r.cap_append chunk)

/-- Making room for the new bytes, or taking the end of them alone, is keeping the end of it all. -/
theorem drop_evicted (stream bytes : List UInt8) (cap : Nat) :
    (if bytes.length ≥ cap then bytes.drop (bytes.length - cap)
      else (stream.drop (stream.length - cap)).drop
        ((stream.drop (stream.length - cap)).length + bytes.length - cap) ++ bytes) =
      (stream ++ bytes).drop ((stream ++ bytes).length - cap) := by
  rw [List.drop_append, List.length_append]
  split
  case isTrue hlong =>
    have hgone : stream.drop (stream.length + bytes.length - cap) = [] :=
      List.drop_eq_nil_of_le (by omega)
    rw [hgone, List.nil_append]
    congr 1
    omega
  case isFalse hshort =>
    have hkept : stream.length + bytes.length - cap - stream.length = 0 := by omega
    have hevict : stream.length - cap + (stream.length - (stream.length - cap) + bytes.length - cap) =
        stream.length + bytes.length - cap := by
      omega
    rw [hkept, List.drop_zero, List.drop_drop, List.length_drop, hevict]

theorem data_append {r : ByteRing} {stream : List UInt8}
    (h : r.data = stream.drop (stream.length - r.cap)) (bytes : List UInt8) :
    (r.append bytes).data = (stream ++ bytes).drop ((stream ++ bytes).length - r.cap) := by
  by_cases hbytes : bytes = []
  · subst hbytes
    rw [append_nil, List.append_nil]
    exact h
  · rw [append_of_ne_nil r hbytes, ← drop_evicted, ← h]

namespace Holds

variable {r : ByteRing} {stream : List UInt8}

theorem new (cap : Nat) : (ByteRing.new cap).Holds [] :=
  ⟨Nat.lt_of_lt_of_le Nat.one_pos (Nat.le_max_right cap 1), List.drop_nil.symm, rfl, rfl⟩

theorem length_data (h : r.Holds stream) : r.data.length = min r.cap stream.length := by
  rw [h.data, List.length_drop]
  omega

theorem append (h : r.Holds stream) (bytes : List UInt8) (hroom : stream.length + bytes.length ≤ u64Max) :
    (r.append bytes).Holds (stream ++ bytes) := by
  by_cases hbytes : bytes = []
  · subst hbytes
    rw [append_nil, List.append_nil]
    exact h
  · rw [append_of_ne_nil r hbytes, h.stop, Nat.min_eq_left hroom, h.data, drop_evicted]
    exact ⟨h.cap_pos, rfl, List.length_append.symm, by rw [List.length_append]⟩

theorem foldl_append {chunks : List (List UInt8)} (h : r.Holds stream)
    (hroom : (stream ++ chunks.flatten).length ≤ u64Max) :
    (chunks.foldl ByteRing.append r).Holds (stream ++ chunks.flatten) := by
  induction chunks generalizing r stream with
  | nil =>
    rw [List.flatten_nil, List.append_nil]
    exact h
  | cons chunk chunks ih =>
    rw [List.flatten_cons, ← List.append_assoc] at hroom ⊢
    have hchunk : stream.length + chunk.length ≤ u64Max := by
      simp only [List.length_append] at hroom
      omega
    exact ih (h.append chunk hchunk) hroom

/-- From a retained offset on, the stream; from any other one, nothing. -/
theorem deltasAfter (h : r.Holds stream) (start : Nat) :
    r.deltasAfter start =
      if r.retainedBase ≤ start ∧ start ≤ r.endOffset then .ok (stream.drop start)
      else .error .checkpointEvicted := by
  rw [ByteRing.deltasAfter, endOffset]
  by_cases hbase : r.retainedBase ≤ start
  · rw [if_neg (Nat.not_lt.mpr hbase)]
    by_cases hstop : start ≤ r.stop
    · have hbase' := h.base
      have hlength := h.length_data
      have hskip : stream.length - r.cap + (start - r.retainedBase) = start := by omega
      rw [if_neg (Nat.not_lt.mpr hstop), if_pos ⟨hbase, hstop⟩, h.data, List.drop_drop, hskip]
    · rw [if_pos (Nat.lt_of_not_le hstop), if_neg fun h => hstop h.2]
  · rw [if_pos (Nat.lt_of_not_le hbase), if_neg fun h => hbase h.1]

end Holds

end ByteRing

-- ---------------------------------------------------------------------------
-- Recovery
-- ---------------------------------------------------------------------------

/-- The one format that is accepted. -/
def checkpointFormatVersion : UInt16 := 1

namespace StoredCheckpoint

def checkCompatible (rec : StoredCheckpoint) : Except Error Unit :=
  if rec.formatVersion ≠ checkpointFormatVersion then .error .incompatibleCheckpoint else .ok ()

end StoredCheckpoint

namespace Session

def installCheckpoint (rec : StoredCheckpoint) : Op Session Error Unit := do
  Op.lift rec.checkCompatible
  modify fun s => { s with checkpoint := some rec }

def recovery (s : Session) : Except Error (StoredCheckpoint × List UInt8) :=
  match s.checkpoint with
  | none => .error .noCheckpoint
  | some cp => do
    let deltas ← s.ring.deltasAfter cp.endingOffset.toNat
    pure (cp, deltas)

theorem exec_installCheckpoint (rec : StoredCheckpoint) (s : Session) :
    (installCheckpoint rec).exec s =
      if rec.formatVersion = checkpointFormatVersion then (.ok (), { s with checkpoint := some rec })
      else (.error .incompatibleCheckpoint, s) := by
  rw [installCheckpoint, Op.exec_bind, Op.exec_lift, StoredCheckpoint.checkCompatible]
  by_cases hversion : rec.formatVersion = checkpointFormatVersion
  · rw [if_neg (not_not_intro hversion), if_pos hversion]
    rfl
  · rw [if_pos hversion, if_neg hversion]

theorem recovery_of_holds {s : Session} {stream : List UInt8} {cp : StoredCheckpoint}
    (hring : s.ring.Holds stream) (hcp : s.checkpoint = some cp) :
    s.recovery =
      if s.ring.retainedBase ≤ cp.endingOffset.toNat ∧ cp.endingOffset.toNat ≤ s.ring.endOffset then
        .ok (cp, stream.drop cp.endingOffset.toNat)
      else .error .checkpointEvicted := by
  rw [recovery, hcp]
  dsimp only
  rw [hring.deltasAfter]
  split
  case isTrue => rfl
  case isFalse => rfl

end Session

/-- The ring is the end of the stream under the stream's own offsets, however the stream
was appended; what is continued from a checkpoint is all the bytes after it. -/
theorem ring_suffix (cap : Nat) (chunks : List (List UInt8)) (hroom : chunks.flatten.length < 2 ^ 64) :
    let r : ByteRing := chunks.foldl ByteRing.append (.new cap)
    let stream := chunks.flatten
    r.cap = max cap 1 ∧ r.endOffset = stream.length ∧
      r.snapshot = stream.drop (stream.length - min r.cap stream.length) ∧
      r.retainedBase = r.endOffset - r.snapshot.length ∧
      (∀ start, r.deltasAfter start =
        if r.retainedBase ≤ start ∧ start ≤ r.endOffset then .ok (stream.drop start)
        else .error .checkpointEvicted) ∧
      ∀ s : Session, s.ring = r →
        (∀ rec, (Session.installCheckpoint rec).exec s =
          if rec.formatVersion = checkpointFormatVersion then
            (.ok (), { s with checkpoint := some rec })
          else (.error .incompatibleCheckpoint, s)) ∧
        (s.checkpoint = none → s.recovery = .error .noCheckpoint) ∧
        ∀ cp, s.checkpoint = some cp → s.recovery =
          if r.retainedBase ≤ cp.endingOffset.toNat ∧ cp.endingOffset.toNat ≤ r.endOffset then
            .ok (cp, stream.drop cp.endingOffset.toNat)
          else .error .checkpointEvicted := by
  intro r stream
  have hholds : r.Holds stream := by
    have hfit : ([] ++ chunks.flatten).length ≤ u64Max := by
      rw [List.nil_append, u64Max]
      omega
    exact (ByteRing.Holds.new cap).foldl_append hfit
  have hcap : r.cap = max cap 1 := ByteRing.cap_foldl_append chunks (.new cap)
  have hlast : stream.length - r.cap = stream.length - min r.cap stream.length := by omega
  refine ⟨hcap, hholds.stop, hlast ▸ hholds.data, ?_, hholds.deltasAfter, ?_⟩
  · exact hholds.base.trans (congrArg (· - r.data.length) hholds.stop.symm)
  · rintro s hs
    refine ⟨fun rec => Session.exec_installCheckpoint rec s, fun hnone => ?_, fun cp hcp => ?_⟩
    · rw [Session.recovery, hnone]
    · rw [Session.recovery_of_holds (hs ▸ hholds) hcp, hs]

theorem ring_suffix_evicted :
    let r := [[97, 98, 99], [], [100, 101, 102]].foldl ByteRing.append (.new 4)
    r.snapshot = [99, 100, 101, 102] ∧ r.deltasAfter 3 = .ok [100, 101, 102] ∧
      r.deltasAfter 1 = .error .checkpointEvicted := by
  obtain ⟨-, -, hsnapshot, -, hdeltas, -⟩ :=
    ring_suffix 4 [[97, 98, 99], [], [100, 101, 102]] (by decide)
  exact ⟨hsnapshot, hdeltas 3, hdeltas 1⟩

end Rill.Kernel
