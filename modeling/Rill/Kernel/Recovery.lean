import Rill.Kernel.Events
import Rill.Kernel.History
import Rill.Vt.Delta

/-!
# Recovery of a session

A terminal that is fed what the session reads gives the session checkpoints of itself. What
recovery answers: the last of them with every byte read since, from which any terminal comes to
the view of the first, or that those bytes are gone.
-/

namespace Rill.Kernel

open Lib Vt

-- ---------------------------------------------------------------------------
-- What a call reads
-- ---------------------------------------------------------------------------

/-- The session reads `got`, and appends it to its history. -/
structure Reads (s t : Session) (got : List UInt8) : Prop where
  taken : t.pty.taken = s.pty.taken ++ got
  ring : t.ring = s.ring.append got

namespace Reads

theorem nothing {s t : Session} (htaken : t.pty.taken = s.pty.taken) (hring : t.ring = s.ring) :
    Reads s t [] :=
  ⟨by rw [htaken, List.append_nil], hring⟩

theorem steady {s t : Session} (h : s.Steady t) : Reads s t [] := nothing h.pty.taken h.ring

theorem pollChild (s : Session) : Reads s (Session.pollChild.exec s).2 [] := by
  rcases Session.pollChild_spec s with ⟨r, t, hrun, hsteady, -⟩ | ⟨t, status, hrun, hsteady, -⟩
  · rw [hrun]
    exact steady hsteady
  · rw [hrun]
    exact nothing hsteady.pty.taken hsteady.ring

theorem next (s : Session) (u : Use) : ∃ got, Reads s (u.next s) got := by
  cases u with
  | frame m f =>
    refine ⟨[], ?_⟩
    cases hattach : f.isAttach with
    | false => exact steady (Session.onFrame_steady s m hattach)
    | true =>
      cases f with
      | attach generation sessionId protocol observe =>
        rw [Use.next, Session.onFrame_attach, Session.attach]
        split
        · exact nothing rfl rfl
        · split
          · exact nothing rfl rfl
          · exact nothing rfl rfl
      | data | resize | credit | exit | refused | checkpoint | delta | resyncRequest => cases hattach
  | reap m =>
    refine ⟨[], ?_⟩
    rw [Use.next, Session.reap, Op.exec_modify_bind]
    exact ⟨(pollChild (s.expireInputLeaseIfDue m)).taken, (pollChild (s.expireInputLeaseIfDue m)).ring⟩
  | pollChild => exact ⟨[], pollChild s⟩
  | detach =>
    refine ⟨[], nothing (Session.detach_taken s) ?_⟩
    rw [Use.next, Session.detach]
    rfl
  | terminate =>
    refine ⟨[], ?_⟩
    rw [Use.next, Session.terminate, Op.exec_get_bind]
    split
    · exact nothing rfl rfl
    · exact nothing (Pty.terminate_taken s.pty) rfl
  | ptyReadable =>
    rcases Session.onPtyReadable_spec s with ⟨r, t, hrun, hsteady, -⟩ | ⟨got, p, hrun, -, -, hgives⟩
    · refine ⟨[], ?_⟩
      rw [Use.next, hrun]
      exact steady hsteady
    · refine ⟨got, ?_⟩
      rw [Use.next, hrun]
      exact ⟨hgives.taken, rfl⟩
  | drainPtyAtMost max =>
    rcases Session.drainPtyAtMost_spec s max with
      ⟨r, t, hrun, hsteady, -⟩ | ⟨got, p, hrun, -, -, hgives, -⟩
    · refine ⟨[], ?_⟩
      rw [Use.next, hrun]
      exact steady hsteady
    · refine ⟨got, ?_⟩
      rw [Use.next, hrun]
      exact ⟨hgives.taken, rfl⟩
  | takeInputLease | expireInputLeaseIfDue | releaseObserver | enqueueOutbound | popOutbound |
    takeResyncHistory | noteStalledRead => exact ⟨[], nothing rfl rfl⟩

end Reads

theorem checkpoint_pollChild (s : Session) :
    (Session.pollChild.exec s).2.checkpoint = s.checkpoint := by
  rw [Session.pollChild, Op.exec_get_bind]
  split
  · rfl
  · rw [Op.exec_bind]
    have hwait := Unmarked.onPty s Pty.tryWait s ⟨rfl, rfl, rfl⟩
    rcases hrun : (Session.onPty Pty.tryWait).exec s with ⟨e | _ | status, t⟩
    · rw [hrun] at hwait
      exact hwait.2.2
    · rw [hrun] at hwait
      exact hwait.2.2
    · rw [hrun] at hwait
      exact hwait.2.2

/-- No call of the session's own touches the checkpoint. -/
theorem checkpoint_next (s : Session) (u : Use) : (u.next s).checkpoint = s.checkpoint := by
  have hgentle : u.Gentle → (u.next s).checkpoint = s.checkpoint := fun h => (Unmarked.next s h).2.2
  cases u with
  | reap m =>
    rw [Use.next, Session.reap, Op.exec_modify_bind]
    exact checkpoint_pollChild (s.expireInputLeaseIfDue m)
  | pollChild => exact checkpoint_pollChild s
  | terminate =>
    rw [Use.next, Session.terminate, Op.exec_get_bind]
    split
    · rfl
    · rfl
  | _ => exact hgentle trivial

-- ---------------------------------------------------------------------------
-- A terminal beside the session
-- ---------------------------------------------------------------------------

/-- `StoredCheckpoint::new`. -/
def StoredCheckpoint.of (endingOffset hash : UInt64) (blob : List UInt8) : StoredCheckpoint :=
  ⟨checkpointFormatVersion, endingOffset, hash, blob⟩

/-- A call of the session, or a checkpoint of the terminal for it. -/
inductive Work
  | use (u : Use)
  | capture (hash : UInt64)

def live (e : VtEngine) (s : Session) : VtEngine := e.feed s.pty.taken

/-- A terminal amid a sequence gives no checkpoint. -/
def worked (e : VtEngine) (s : Session) : Work → Session
  | .use u => u.next s
  | .capture hash =>
    let offset := UInt64.ofNat s.ring.endOffset
    match (live e s).exportCheckpoint offset with
    | .ok blob => ((Session.installCheckpoint (.of offset hash blob)).exec s).2
    | .error _ => s

/-- How much the session had read at each checkpoint that was given. -/
def captures (e : VtEngine) : Session → List Work → List Nat :=
  along (worked e) fun s work =>
    match work with
    | .use _ => []
    | .capture _ => if (live e s).parser.isIdle then [s.pty.taken.length] else []

/-- The checkpoint kept is the one of the terminal after `last` bytes. -/
structure Kept (e : VtEngine) (s : Session) (last : Option Nat) : Prop where
  ring : s.ring.Holds s.pty.taken
  cap : s.ring.cap = ringCap
  absent : last = none → s.checkpoint = none
  present : ∀ offset, last = some offset → offset ≤ s.pty.taken.length ∧
    (e.feed (s.pty.taken.take offset)).parser.isIdle = true ∧
    ∃ hash, s.checkpoint = some (.of (UInt64.ofNat offset) hash
      ((e.feed (s.pty.taken.take offset)).screen.exportCheckpoint (UInt64.ofNat offset)))

namespace Kept

variable {e : VtEngine} {s : Session} {last : Option Nat}

theorem use (h : Kept e s last) (u : Use) (hroom : (u.next s).pty.taken.length ≤ u64Max) :
    Kept e (u.next s) last := by
  obtain ⟨got, hreads⟩ := Reads.next s u
  have hcheckpoint := checkpoint_next s u
  rw [hreads.taken, List.length_append] at hroom
  refine ⟨?_, ?_, fun hlast => ?_, fun offset hlast => ?_⟩
  · rw [hreads.taken, hreads.ring]
    exact h.ring.append got hroom
  · rw [hreads.ring, ByteRing.cap_append]
    exact h.cap
  · rw [hcheckpoint]
    exact h.absent hlast
  · obtain ⟨hle, hidle, hash, hsome⟩ := h.present offset hlast
    have htake : (u.next s).pty.taken.take offset = s.pty.taken.take offset := by
      rw [hreads.taken, List.take_append_of_le_length hle]
    rw [htake, hcheckpoint]
    refine ⟨?_, hidle, hash, hsome⟩
    rw [hreads.taken, List.length_append]
    exact Nat.le_trans hle (Nat.le_add_right _ _)

theorem capture (h : Kept e s last) (hash : UInt64) :
    Kept e (worked e s (.capture hash))
      (if (live e s).parser.isIdle then some s.pty.taken.length else last) := by
  rw [worked]
  by_cases hidle : (live e s).parser.isIdle = true
  · rw [VtEngine.exportCheckpoint_of_idle hidle, if_pos hidle]
    dsimp only
    have hversion (hash : UInt64) (blob : List UInt8) :
        (StoredCheckpoint.of (UInt64.ofNat s.ring.endOffset) hash blob).formatVersion =
          checkpointFormatVersion := rfl
    rw [Session.exec_installCheckpoint, if_pos (hversion _ _)]
    refine ⟨h.ring, h.cap, fun hlast => by simp at hlast, ?_⟩
    rintro offset ⟨⟩
    refine ⟨Nat.le_refl _, ?_, hash, ?_⟩
    · rw [List.take_length]
      exact hidle
    · rw [List.take_length, ByteRing.endOffset, h.ring.stop]
      rfl
  · rw [VtEngine.exportCheckpoint, if_neg hidle, if_neg hidle]
    exact h

theorem spawn (e : VtEngine) {pty : Pty} (htaken : pty.taken = []) (ephemeral : Bool) (size : Winsize) :
    Kept e (.spawn pty ephemeral size) none := by
  refine ⟨?_, rfl, fun _ => rfl, fun _ hlast => by simp at hlast⟩
  have hring : (Session.spawn pty ephemeral size).pty.taken = [] := htaken
  rw [hring]
  exact ByteRing.Holds.new ringCap

theorem run (acts : List Work) (h : Kept e s last)
    (hroom : (acts.foldl (worked e) s).pty.taken.length ≤ u64Max) :
    Kept e (acts.foldl (worked e) s) ((captures e s acts).getLast?.or last) := by
  have hrel := @along_rel _ _ _ (worked e)
    (fun s work =>
      match work with
      | .use _ => []
      | .capture _ => if (live e s).parser.isIdle then [s.pty.taken.length] else [])
    (fun s _ out t => s.pty.taken <+: t.pty.taken ∧ ∀ last, Kept e s last → t.pty.taken.length ≤ u64Max →
      Kept e t (out.getLast?.or last))
    (fun s => ⟨List.prefix_refl _, fun last h _ => h⟩)
    (fun s work acts out t => ?_)
    s acts
  · exact hrel.2 last h hroom
  · rintro ⟨hgrows, hrest⟩
    cases work with
    | use u =>
      obtain ⟨got, hreads⟩ := Reads.next s u
      have hstep : s.pty.taken <+: (u.next s).pty.taken := ⟨got, hreads.taken.symm⟩
      refine ⟨hstep.trans hgrows, fun last h hroom => ?_⟩
      exact hrest last (h.use u (Nat.le_trans hgrows.length_le hroom)) hroom
    | capture hash =>
      have hsame : (worked e s (.capture hash)).pty = s.pty := by
        rw [worked]
        split
        · rw [Session.exec_installCheckpoint]
          split
          · rfl
          · rfl
        · rfl
      rw [hsame] at hgrows
      refine ⟨hgrows, fun last h hroom => ?_⟩
      have hkept := hrest _ (h.capture hash) hroom
      by_cases hidle : (live e s).parser.isIdle = true
      · rw [if_pos hidle] at hkept ⊢
        rw [List.getLast?_append, Option.or_assoc]
        exact hkept
      · rw [if_neg hidle] at hkept ⊢
        exact hkept

end Kept

/-- After any calls and checkpoints, recovery gives the last checkpoint with every byte read since,
just where no more of them than the history keeps were read; and any terminal that takes up the
checkpoint and is fed the bytes, cut anyhow, comes to the view of the one that was fed all along. -/
theorem recovery_live {e : VtEngine} (he : VtEngine.Reached e) {pty : Pty} (htaken : pty.taken = [])
    (ephemeral : Bool) (size : Winsize) (acts : List Work) {s : Session}
    (hs : s = acts.foldl (worked e) (.spawn pty ephemeral size)) (hroom : s.pty.taken.length < 2 ^ 64) :
    match (captures e (.spawn pty ephemeral size) acts).getLast? with
    | none => s.recovery = .error .noCheckpoint
    | some offset =>
      if s.pty.taken.length ≤ offset + ringCap then
        ∃ cp, s.recovery = .ok (cp, s.pty.taken.drop offset) ∧
          ∀ (m : VtEngine) (chunks : List (List UInt8)), chunks.flatten = s.pty.taken.drop offset →
            ∃ next, m.importCheckpoint cp.blob = .ok (UInt64.ofNat offset, next) ∧
              VtEngine.SameView (next.feedAll chunks) (live e s)
      else s.recovery = .error .checkpointEvicted := by
  subst hs
  have hfits : (acts.foldl (worked e) (.spawn pty ephemeral size)).pty.taken.length ≤ u64Max :=
    Nat.le_of_lt_succ hroom
  have hkept := (Kept.spawn e htaken ephemeral size).run acts hfits
  rw [Option.or_none] at hkept
  generalize acts.foldl (worked e) (.spawn pty ephemeral size) = s at hroom hfits hkept ⊢
  cases hlast : (captures e (.spawn pty ephemeral size) acts).getLast? with
  | none =>
    dsimp only
    rw [Session.recovery, hkept.absent hlast]
  | some offset =>
    dsimp only
    obtain ⟨hle, hidle, hash, hcheckpoint⟩ := hkept.present offset hlast
    have hoffset : (UInt64.ofNat offset).toNat = offset :=
      UInt64.toNat_ofNat_of_lt' (Nat.lt_of_le_of_lt hle hroom)
    have hbase : s.ring.retainedBase ≤ offset ↔ s.pty.taken.length ≤ offset + ringCap := by
      rw [hkept.ring.base, hkept.ring.length_data, hkept.cap]
      omega
    have hrecovery := Session.recovery_of_holds hkept.ring hcheckpoint
    have hend : (StoredCheckpoint.of (UInt64.ofNat offset) hash
        ((e.feed (s.pty.taken.take offset)).screen.exportCheckpoint (UInt64.ofNat offset))).endingOffset.toNat =
          offset := hoffset
    rw [hend, ByteRing.endOffset, hkept.ring.stop] at hrecovery
    simp only [hbase] at hrecovery
    split
    case isFalse hlong => rw [hrecovery, if_neg fun h => hlong h.1]
    case isTrue hshort =>
      rw [if_pos ⟨hshort, hle⟩] at hrecovery
      refine ⟨_, hrecovery, fun m chunks hchunks => ?_⟩
      have hcaptured : VtEngine.Reached (e.feed (s.pty.taken.take offset)) := he.feed _
      obtain ⟨cols, rows, hsound⟩ := hcaptured.invariant.sound
      refine ⟨_, VtEngine.importCheckpoint_exported hsound m (UInt64.ofNat offset), ?_⟩
      have hmirror := (VtEngine.mirror_imported hcaptured hidle m.screen.importedHost).feed
        (s.pty.taken.drop offset)
      rw [VtEngine.feed_feed, List.take_append_drop] at hmirror
      rw [VtEngine.feedAll_eq rfl, hchunks]
      exact hmirror.sameView

def twoTurns : Session :=
  .spawn (.spawn ⟨2, 1, 0, 0⟩ [⟨[97, 98, 99], none, none, none⟩, ⟨[100, 101], none, none, none⟩])
    false ⟨2, 1, 0, 0⟩

/-- The first turn is read, a terminal of two cells gives its checkpoint, the second turn is read:
recovery answers the bytes of the second. -/
theorem recovery_live_two :
    let e := (VtEngine.new 2 1).toOption.get rfl
    let acts := [Work.use (.drainPtyAtMost none), .capture 0, .use (.drainPtyAtMost none)]
    ∃ cp, (acts.foldl (worked e) twoTurns).recovery = .ok (cp, [100, 101]) := by
  intro e acts
  have h := recovery_live (.new (show VtEngine.new 2 1 = .ok e from rfl)) rfl false ⟨2, 1, 0, 0⟩ acts
    (s := acts.foldl (worked e) twoTurns) rfl (by decide +kernel)
  have hlast : (captures e twoTurns acts).getLast? = some 3 := by decide +kernel
  have htaken : (acts.foldl (worked e) twoTurns).pty.taken = [97, 98, 99, 100, 101] := by decide +kernel
  unfold twoTurns at hlast htaken h ⊢
  rw [hlast] at h
  simp only [htaken] at h
  obtain ⟨cp, hrecovery, -⟩ := h
  exact ⟨cp, hrecovery⟩

end Rill.Kernel
