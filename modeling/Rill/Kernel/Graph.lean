import Mathlib.Logic.Function.Basic
import Rill.Kernel.Session
import Rill.Lib.Table

/-!
# The session graph

The kernel's leaves by id, and the events it records about them.
-/

namespace Rill

open Lib Attach

namespace Kernel

structure SessionId where
  raw : UInt64
  deriving DecidableEq, Repr

inductive GraphEventKind
  | spawn
  | attach
  | terminate
  | exit
  deriving DecidableEq, Repr

structure GraphEvent where
  id : Nat
  session : SessionId
  kind : GraphEventKind
  deriving DecidableEq, Repr

end Kernel

structure Kernel where
  next : UInt64
  leaves : Table Kernel.SessionId Kernel.Session
  events : List Kernel.GraphEvent
  nextEvent : Nat

namespace Kernel

def new : Kernel where
  next := 1
  leaves := .empty
  events := []
  nextEvent := 1

def session (k : Kernel) (id : SessionId) : Option Session := k.leaves.get? id

def ids (k : Kernel) : List SessionId := k.leaves.keys

def setSession (k : Kernel) (id : SessionId) (s : Session) : Kernel :=
  { k with leaves := k.leaves.set id s }

def record (k : Kernel) (session : SessionId) (kind : GraphEventKind) : Kernel :=
  { k with
    nextEvent := min (k.nextEvent + 1) u64Max
    events := k.events ++ [⟨k.nextEvent, session, kind⟩] }

def attached (k : Kernel) (id : SessionId) : Bool := (k.session id).any Session.attached

/-- The first id from `next` on that no leaf has, and the id after it. The
leaves have fewer ids than there are, so `turns` past their number is enough. -/
def allocateId (leaves : Table SessionId Session) : Nat → UInt64 → SessionId × UInt64
  | turns, next =>
    let after := if next = 18446744073709551615 then 1 else next + 1
    if ⟨next⟩ ∉ leaves.keys then (⟨next⟩, after)
    else match turns with
      | 0 => (⟨next⟩, after)
      | turns + 1 => allocateId leaves turns after

/-- `Session::spawn` gave `session`. -/
def spawnLeaf (k : Kernel) (session : Session) : SessionId × Kernel :=
  let (id, next) := allocateId k.leaves k.ids.length k.next
  (id, { k with next, leaves := k.leaves.insert id session }.record id .spawn)

def onSession (id : SessionId) (m : Op Session Error α) : Op Kernel Error α :=
  Op.zoom (fun k => k.session id) (fun s k => k.setSession id s) .unknownSession m

/-- The queues of claimed leaves are emptied; the others keep their control
frames. -/
def takeOutbound (k : Kernel) (claimed : List SessionId) : Kernel :=
  { k with leaves := k.leaves.map fun id s =>
      { s with outbound :=
          if id ∈ claimed then [] else s.outbound.filter fun q => !q.frame.isData } }

/-- One EXIT event the first time the child is seen dead. -/
def reap (m : Moment) (id : SessionId) : Op Kernel Error Unit := do
  if ← onSession id (Session.reap m) then modify fun k => k.record id .exit

def isWriterAttach : Frame → Bool
  | .attach _ _ _ observe => !observe
  | _ => false

def onFrame (m : Moment) (id : SessionId) (frame : Frame) : Op Kernel Error Unit := do
  let was := (← get).attached id
  onSession id (Session.onFrame m frame)
  let now := (← get).attached id
  if isWriterAttach frame && !was && now then modify fun k => k.record id .attach

-- ---------------------------------------------------------------------------
-- The sessions after each call
-- ---------------------------------------------------------------------------

@[simp] theorem session_record (k : Kernel) (id : SessionId) (kind : GraphEventKind) :
    (k.record id kind).session = k.session := rfl

theorem session_setSession {k : Kernel} {id : SessionId} {s : Session} (h : k.session id = some s)
    (t : Session) : (k.setSession id t).session = Function.update k.session id (some t) := by
  funext j
  by_cases hj : j = id
  · subst hj
    rw [Function.update_self]
    exact Table.get?_set_of_some h t
  · rw [Function.update_of_ne hj]
    exact Table.get?_set_of_ne k.leaves t hj

theorem setSession_self {k : Kernel} {id : SessionId} {s : Session} (h : k.session id = some s) :
    k.setSession id s = k := by
  rw [setSession, Table.set_get?_self h]

theorem session_takeOutbound (k : Kernel) (claimed : List SessionId) (id : SessionId) :
    (k.takeOutbound claimed).session id = (k.session id).map fun s =>
      { s with outbound :=
          if id ∈ claimed then [] else s.outbound.filter fun q => !q.frame.isData } :=
  Table.get?_map k.leaves _ id

theorem exec_onSession {k : Kernel} {id : SessionId} {s : Session} (h : k.session id = some s)
    (m : Op Session Error α) :
    (onSession id m).exec k = ((m.exec s).1, k.setSession id (m.exec s).2) := by
  simp only [onSession, Op.zoom, Op.exec_of, h]

theorem exec_onSession_none {k : Kernel} {id : SessionId} (h : k.session id = none)
    (m : Op Session Error α) : (onSession id m).exec k = (.error .unknownSession, k) := by
  simp only [onSession, Op.zoom, Op.exec_of, h]

theorem attached_eq {k : Kernel} {id : SessionId} {s : Session} (h : k.session id = some s) :
    k.attached id = s.attached := by
  rw [attached, h]
  rfl

/-- The answer is the session's, and only that session changes. -/
theorem onFrame_spec {k : Kernel} {id : SessionId} {s : Session} (h : k.session id = some s)
    (m : Moment) (frame : Frame) :
    ((onFrame m id frame).exec k).1 = ((Session.onFrame m frame).exec s).1 ∧
      ((onFrame m id frame).exec k).2.session =
        Function.update k.session id (some ((Session.onFrame m frame).exec s).2) := by
  rw [onFrame, Op.exec_get_bind, Op.exec_bind, exec_onSession h]
  rcases (Session.onFrame m frame).exec s with ⟨e | _, t⟩
  · exact ⟨rfl, session_setSession h t⟩
  · dsimp only
    rw [Op.exec_get_bind]
    split
    case isTrue => exact ⟨rfl, session_setSession h t⟩
    case isFalse => exact ⟨rfl, session_setSession h t⟩

theorem exec_onFrame {k : Kernel} {id : SessionId} {s : Session} (h : k.session id = some s)
    (m : Moment) {frame : Frame} (hframe : isWriterAttach frame = false) :
    (onFrame m id frame).exec k =
      (((Session.onFrame m frame).exec s).1,
        k.setSession id ((Session.onFrame m frame).exec s).2) := by
  rw [onFrame, Op.exec_get_bind, Op.exec_bind, exec_onSession h]
  rcases (Session.onFrame m frame).exec s with ⟨e | _, t⟩
  · rfl
  · dsimp only
    rw [Op.exec_get_bind, hframe]
    rfl

theorem setSession_eq_self {k : Kernel} {id : SessionId} {s t : Session}
    (h : k.session id = some s) : k.setSession id t = k ↔ t = s := by
  constructor
  · intro hsame
    have hget := session_setSession h t
    rw [hsame] at hget
    have hid := congrFun hget id
    rw [Function.update_self, h] at hid
    exact (Option.some.inj hid).symm
  · rintro rfl
    exact setSession_self h

theorem onFrame_none {k : Kernel} {id : SessionId} (h : k.session id = none) (m : Moment)
    (frame : Frame) : (onFrame m id frame).exec k = (.error .unknownSession, k) := by
  rw [onFrame, Op.exec_get_bind, Op.exec_bind, exec_onSession_none h]

theorem reap_spec {k : Kernel} {id : SessionId} {s : Session} (h : k.session id = some s)
    (m : Moment) :
    ((reap m id).exec k).1 = ((Session.reap m).exec s).1.map (fun _ => ()) ∧
      ((reap m id).exec k).2.session =
        Function.update k.session id (some ((Session.reap m).exec s).2) := by
  rw [reap, Op.exec_bind, exec_onSession h]
  rcases (Session.reap m).exec s with ⟨e | seen, t⟩
  · exact ⟨rfl, session_setSession h t⟩
  · cases seen with
    | true => exact ⟨rfl, session_setSession h t⟩
    | false => exact ⟨rfl, session_setSession h t⟩

theorem reap_none {k : Kernel} {id : SessionId} (h : k.session id = none) (m : Moment) :
    (reap m id).exec k = (.error .unknownSession, k) := by
  rw [reap, Op.exec_bind, exec_onSession_none h]

theorem session_spawnLeaf_new (s : Session) :
    (new.spawnLeaf s).2.session = Function.update new.session (new.spawnLeaf s).1 (some s) := by
  have hinsert : (new.spawnLeaf s).2.session = (Table.empty.insert (new.spawnLeaf s).1 s).get? :=
    rfl
  have hmem : (new.spawnLeaf s).1 ∉ (Table.empty : Table SessionId Session).keys :=
    List.not_mem_nil
  rw [hinsert]
  funext j
  by_cases hj : j = (new.spawnLeaf s).1
  · rw [hj, Function.update_self]
    exact Table.get?_insert_self hmem s
  · rw [Function.update_of_ne hj]
    exact Table.get?_insert_of_ne Table.empty s hj

/-- A new leaf, or an id that was taken after all and nothing new. -/
theorem session_spawnLeaf (k : Kernel) (s : Session) :
    (k.spawnLeaf s).2.session = k.session ∨
      ∃ id, k.session id = none ∧
        (k.spawnLeaf s).2.session = Function.update k.session id (some s) := by
  have hsession : (k.spawnLeaf s).2.session =
      (k.leaves.insert (allocateId k.leaves k.ids.length k.next).1 s).get? := rfl
  rw [hsession]
  generalize (allocateId k.leaves k.ids.length k.next).1 = id
  by_cases hid : id ∈ k.leaves.keys
  · left
    rw [Table.insert, dif_pos hid]
    rfl
  · refine .inr ⟨id, ?_, ?_⟩
    · rw [Table.mem_keys_iff] at hid
      simpa [session] using hid
    · funext j
      by_cases hj : j = id
      · subst hj
        rw [Function.update_self]
        exact Table.get?_insert_self hid s
      · rw [Function.update_of_ne hj]
        exact Table.get?_insert_of_ne k.leaves s hj

end Kernel

end Rill
