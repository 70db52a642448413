import Rill.Lib.Log
import Rill.Lib.Redelivery
import Rill.Lib.Table

/-!
# The transcript

A bounded ledger of semantic events. An event names the bytes of the terminal
stream that it is about, if any, and who says so.
-/

namespace Rill.Kernel

open Lib

structure EventId where
  value : String
  nonempty : value.isEmpty = false
  deriving DecidableEq

inductive EventProvenance
  | pty
  | structuredInput
  | shellMark
  | process
  | toolAdapter
  | runtime
  deriving DecidableEq, Repr

inductive EventPayload
  | terminalOutput (range : UInt64 × UInt64)
  | commandSubmitted (command : String)
  | processExited (status : Int32)
  | unstructured (range : UInt64 × UInt64)
  | discontinuity (range : UInt64 × UInt64)
  deriving DecidableEq, Repr

inductive TranscriptError
  | emptyEventId
  | conflictingEventId (eventId : EventId)
  | outOfOrderSequence (expectedAfter got : UInt64)
  | generationMismatch (expected got : UInt64)
  | invalidTerminalRange (start stop : UInt64)
  | overlappingTerminalRange (previousEnd nextStart : UInt64)
  | unauthorizedProvenance (provenance : EventProvenance) (payload : String)
  | capacityExceeded (maxEvents : Nat) (recoveryCursor : UInt64)
  deriving DecidableEq

def EventId.new (value : String) : Except TranscriptError EventId :=
  if h : value.isEmpty then .error .emptyEventId else .ok ⟨value, Bool.eq_false_iff.mpr h⟩

namespace EventPayload

def terminalRange : EventPayload → Option (UInt64 × UInt64)
  | terminalOutput range | unstructured range | discontinuity range => some range
  | commandSubmitted _ | processExited _ => none

def isCommand : EventPayload → Bool
  | commandSubmitted _ => true
  | _ => false

def isExit : EventPayload → Bool
  | processExited _ => true
  | _ => false

end EventPayload

def EventProvenance.submits : EventProvenance → Bool
  | structuredInput | shellMark => true
  | _ => false

structure SemanticEvent where
  eventId : EventId
  sequence : UInt64
  executionGeneration : UInt64
  provenance : EventProvenance
  payload : EventPayload
  deriving DecidableEq

namespace SemanticEvent

def new (eventId : EventId) (sequence executionGeneration : UInt64) (provenance : EventProvenance)
    (payload : EventPayload) : Except TranscriptError SemanticEvent := do
  if let some (start, stop) := payload.terminalRange then
    if start ≥ stop then throw (.invalidTerminalRange start stop)
  if payload.isCommand && !provenance.submits then
    throw (.unauthorizedProvenance provenance "command submitted")
  if payload.isExit && provenance != .process then
    throw (.unauthorizedProvenance provenance "process exited")
  pure { eventId, sequence, executionGeneration, provenance, payload }

theorem new_eq_ok {eventId : EventId} {sequence executionGeneration : UInt64}
    {provenance : EventProvenance} {payload : EventPayload} {e : SemanticEvent}
    (h : new eventId sequence executionGeneration provenance payload = .ok e) :
    (∀ r, payload.terminalRange = some r → r.1 < r.2) ∧
      (payload.isCommand → provenance.submits) ∧ (payload.isExit → provenance = .process) := by
  unfold new at h
  have hproduced : ¬ (payload.isCommand && !provenance.submits) ∧
      ¬ (payload.isExit && provenance != .process) →
      (payload.isCommand → provenance.submits) ∧ (payload.isExit → provenance = .process) := by
    simp
  cases hrange : payload.terminalRange with
  | none =>
    simp only [hrange] at h
    rw [guard_eq_ok, guard_eq_ok] at h
    exact ⟨nofun, hproduced ⟨h.1, h.2.1⟩⟩
  | some r =>
    simp only [hrange] at h
    rw [guard_eq_ok, guard_eq_ok, guard_eq_ok] at h
    refine ⟨?_, hproduced ⟨h.2.1, h.2.2.1⟩⟩
    rintro _ ⟨⟩
    exact UInt64.not_le.mp h.1

end SemanticEvent

structure Authored extends SemanticEvent where
  made : SemanticEvent.new eventId sequence executionGeneration provenance payload =
    .ok toSemanticEvent

namespace Authored

theorem nonempty (e : Authored) (h : e.payload.terminalRange = some r) : r.1 < r.2 :=
  (SemanticEvent.new_eq_ok e.made).1 r h

theorem submits (e : Authored) (h : e.payload.isCommand) : e.provenance.submits :=
  (SemanticEvent.new_eq_ok e.made).2.1 h

theorem exits (e : Authored) (h : e.payload.isExit) : e.provenance = .process :=
  (SemanticEvent.new_eq_ok e.made).2.2 h

end Authored

structure TranscriptLedger where
  events : List SemanticEvent
  byId : Table EventId Nat
  lastSequence : Option UInt64
  executionGeneration : Option UInt64
  lastTerminalEnd : Option UInt64
  maxEvents : Nat

namespace TranscriptLedger

def withMaxEvents (maxEvents : Nat) : TranscriptLedger where
  events := []
  byId := .empty
  lastSequence := none
  executionGeneration := none
  lastTerminalEnd := none
  maxEvents := max maxEvents 1

def new : TranscriptLedger := withMaxEvents 4096

/-- The range of an event is of the ledger's generation and after the ranges it has. -/
def checkRange (l : TranscriptLedger) (event : SemanticEvent) : Except TranscriptError Unit := do
  if let some (start, _) := event.payload.terminalRange then
    if let some generation := l.executionGeneration then
      if event.executionGeneration ≠ generation then
        throw (.generationMismatch generation event.executionGeneration)
    if let some previousEnd := l.lastTerminalEnd then
      if start < previousEnd then throw (.overlappingTerminalRange previousEnd start)

/-- The checks on an event whose id is new. -/
def check (l : TranscriptLedger) (event : SemanticEvent) : Except TranscriptError Unit := do
  if l.events.length ≥ l.maxEvents then
    throw (.capacityExceeded l.maxEvents (l.lastSequence.getD 0))
  if let some last := l.lastSequence then
    if event.sequence ≤ last then throw (.outOfOrderSequence last event.sequence)
  l.checkRange event

/-- An accepted event; one without a range leaves generation and last end alone. -/
def push (l : TranscriptLedger) (event : SemanticEvent) : TranscriptLedger :=
  { l with
    executionGeneration :=
      (event.payload.terminalRange.map fun _ => event.executionGeneration).or l.executionGeneration
    lastTerminalEnd := (event.payload.terminalRange.map Prod.snd).or l.lastTerminalEnd
    lastSequence := some event.sequence
    byId := l.byId.insert event.eventId l.events.length
    events := l.events ++ [event] }

def append (event : SemanticEvent) : Op TranscriptLedger TranscriptError Unit := do
  let l ← get
  match l.byId.get? event.eventId with
  | some index =>
    if l.events[index]? = some event then pure () else throw (.conflictingEventId event.eventId)
  | none =>
    Op.lift (l.check event)
    modify fun l => l.push event

def ranges (l : TranscriptLedger) : List (UInt64 × UInt64) :=
  l.events.filterMap fun e => e.payload.terminalRange

-- ---------------------------------------------------------------------------
-- What an append does
-- ---------------------------------------------------------------------------

def Holds (l : TranscriptLedger) (e : SemanticEvent) : Prop :=
  ∃ i, l.byId.get? e.eventId = some i ∧ l.events[i]? = some e

/-- The event is new and passes every check. -/
structure Fits (l : TranscriptLedger) (e : SemanticEvent) : Prop where
  unknown : l.byId.get? e.eventId = none
  room : l.events.length < l.maxEvents
  later : ∀ last, l.lastSequence = some last → last < e.sequence
  generation : ∀ r, e.payload.terminalRange = some r →
    ∀ g, l.executionGeneration = some g → e.executionGeneration = g
  follows : ∀ r, e.payload.terminalRange = some r → ∀ p, l.lastTerminalEnd = some p → p ≤ r.1

theorem checkRange_eq_ok {l : TranscriptLedger} {e : SemanticEvent} :
    l.checkRange e = .ok () ↔
      (∀ r, e.payload.terminalRange = some r →
        ∀ g, l.executionGeneration = some g → e.executionGeneration = g) ∧
      (∀ r, e.payload.terminalRange = some r → ∀ p, l.lastTerminalEnd = some p → p ≤ r.1) := by
  unfold checkRange
  cases e.payload.terminalRange with
  | none => exact iff_of_true rfl ⟨nofun, nofun⟩
  | some r =>
    cases l.executionGeneration with
    | none =>
      cases l.lastTerminalEnd with
      | none => exact iff_of_true rfl ⟨nofun, nofun⟩
      | some p => simp [last_guard_eq_ok]
    | some g =>
      dsimp only
      rw [guard_eq_ok]
      cases l.lastTerminalEnd with
      | none => simp [pure, Except.pure]
      | some p => simp [last_guard_eq_ok]

theorem check_eq_ok {l : TranscriptLedger} {e : SemanticEvent}
    (hunknown : l.byId.get? e.eventId = none) : l.check e = .ok () ↔ l.Fits e := by
  unfold check
  rw [guard_eq_ok, Nat.not_le]
  have hfits : (l.events.length < l.maxEvents ∧
      (∀ last, l.lastSequence = some last → last < e.sequence) ∧ l.checkRange e = .ok ()) ↔
      l.Fits e := by
    rw [checkRange_eq_ok]
    constructor
    · rintro ⟨hroom, hlater, hgeneration, hfollows⟩
      exact ⟨hunknown, hroom, hlater, hgeneration, hfollows⟩
    · rintro ⟨-, hroom, hlater, hgeneration, hfollows⟩
      exact ⟨hroom, hlater, hgeneration, hfollows⟩
  rw [← hfits]
  refine and_congr_right fun _ => ?_
  cases l.lastSequence with
  | none => simp
  | some last =>
    dsimp only
    rw [guard_eq_ok]
    simp

theorem exec_append_of_holds {l : TranscriptLedger} {e : SemanticEvent} (h : l.Holds e) :
    (append e).exec l = (.ok (), l) := by
  obtain ⟨i, hi, he⟩ := h
  rw [append, Op.exec_get_bind, hi]
  dsimp only
  rw [if_pos he]
  rfl

theorem exec_append_of_fits {l : TranscriptLedger} {e : SemanticEvent} (h : l.Fits e) :
    (append e).exec l = (.ok (), l.push e) := by
  rw [append, Op.exec_get_bind, h.unknown]
  dsimp only
  rw [(check_eq_ok h.unknown).mpr h]
  rfl

theorem exec_append_of_not {l : TranscriptLedger} {e : SemanticEvent} (hholds : ¬ l.Holds e)
    (hfits : ¬ l.Fits e) : ∃ err, (append e).exec l = (.error err, l) := by
  rw [append, Op.exec_get_bind]
  cases hid : l.byId.get? e.eventId with
  | some i =>
    dsimp only
    rw [if_neg fun he => hholds ⟨i, hid, he⟩]
    exact ⟨_, rfl⟩
  | none =>
    cases hcheck : l.check e with
    | ok _ => exact absurd ((check_eq_ok hid).mp hcheck) hfits
    | error err => exact ⟨err, rfl⟩

theorem append_cases (l : TranscriptLedger) (e : SemanticEvent) :
    (l.Holds e ∧ (append e).exec l = (.ok (), l)) ∨
      (l.Fits e ∧ (append e).exec l = (.ok (), l.push e)) ∨
      (¬ l.Holds e ∧ ¬ l.Fits e ∧ ∃ err, (append e).exec l = (.error err, l)) := by
  by_cases hholds : l.Holds e
  · exact .inl ⟨hholds, exec_append_of_holds hholds⟩
  · by_cases hfits : l.Fits e
    · exact .inr (.inl ⟨hfits, exec_append_of_fits hfits⟩)
    · exact .inr (.inr ⟨hholds, hfits, exec_append_of_not hholds hfits⟩)

/-- What every append keeps, when pushing an event that fits keeps it. -/
theorem append_keeps {I : TranscriptLedger → Prop} {l : TranscriptLedger} (e : SemanticEvent)
    (hpush : l.Fits e → I (l.push e)) (hl : I l) : I ((append e).exec l).2 := by
  obtain ⟨-, h⟩ | ⟨hfits, h⟩ | ⟨-, -, err, h⟩ := append_cases l e
  · rwa [h]
  · rw [h]
    exact hpush hfits
  · rwa [h]

-- ---------------------------------------------------------------------------
-- Redelivery
-- ---------------------------------------------------------------------------

theorem get?_push_self {l : TranscriptLedger} {e : SemanticEvent} (h : l.Fits e) :
    (l.push e).byId.get? e.eventId = some l.events.length := by
  refine Table.get?_insert_self ?_ _
  rw [Table.mem_keys_iff, h.unknown]
  exact Bool.false_ne_true

theorem holds_push_self {l : TranscriptLedger} {e : SemanticEvent} (h : l.Fits e) :
    (l.push e).Holds e := ⟨l.events.length, get?_push_self h, List.getElem?_concat_length⟩

theorem holds_push {l : TranscriptLedger} {e f : SemanticEvent} (hfits : l.Fits f)
    (h : l.Holds e) : (l.push f).Holds e := by
  obtain ⟨i, hi, he⟩ := h
  have hne : e.eventId ≠ f.eventId := by
    intro hid
    rw [hid, hfits.unknown] at hi
    cases hi
  refine ⟨i, (Table.get?_insert_of_ne _ _ hne).trans hi, ?_⟩
  exact (List.getElem?_append_left (List.getElem?_eq_some_iff.mp he).1).trans he

theorem fits_of_push {l : TranscriptLedger} {e : SemanticEvent} {f : Authored}
    (hfits : l.Fits f.toSemanticEvent) (h : (l.push f.toSemanticEvent).Fits e) : l.Fits e := by
  have hne : e.eventId ≠ f.eventId := by
    intro hid
    have hself := h.unknown
    rw [hid] at hself
    obtain ⟨i, hi, -⟩ := holds_push_self hfits
    rw [hi] at hself
    cases hself
  refine ⟨(Table.get?_insert_of_ne _ _ hne).symm.trans h.unknown, ?_, ?_, ?_, ?_⟩
  · have hroom : (l.events ++ [f.toSemanticEvent]).length < l.maxEvents := h.room
    rw [List.length_append] at hroom
    exact Nat.lt_of_le_of_lt (Nat.le_add_right _ _) hroom
  · intro last hlast
    exact UInt64.lt_trans (hfits.later last hlast) (h.later f.sequence rfl)
  · intro r hr g hg
    refine h.generation r hr g ?_
    cases hrange : f.payload.terminalRange with
    | none => simpa [push, hrange] using hg
    | some r' => simpa [push, hrange] using hfits.generation r' hrange g hg
  · intro r hr p hp
    cases hrange : f.payload.terminalRange with
    | none => exact h.follows r hr p (by simpa [push, hrange] using hp)
    | some r' =>
      have hend : r'.2 ≤ r.1 := h.follows r hr r'.2 (by simp [push, hrange])
      have hstart : p ≤ r'.1 := hfits.follows r' hrange p hp
      exact UInt64.le_trans hstart (UInt64.le_trans (UInt64.le_of_lt (f.nonempty hrange)) hend)

theorem push_ne (l : TranscriptLedger) (e : SemanticEvent) : l.push e ≠ l := by
  intro h
  have hevents : l.events ++ [e] = l.events := congrArg events h
  simp at hevents

theorem takes_iff {l : TranscriptLedger} {e : SemanticEvent} :
    (append e).exec l = (.ok (), l) ↔ l.Holds e := by
  refine ⟨fun htakes => ?_, exec_append_of_holds⟩
  obtain ⟨hholds, -⟩ | ⟨-, h⟩ | ⟨-, -, err, h⟩ := append_cases l e
  · exact hholds
  · exact absurd (Prod.mk.inj (h.symm.trans htakes)).2 (push_ne l e)
  · cases h.symm.trans htakes

theorem refuses_iff {l : TranscriptLedger} {e : SemanticEvent} :
    (∃ err, (append e).exec l = (.error err, l)) ↔ ¬ l.Holds e ∧ ¬ l.Fits e := by
  refine ⟨?_, fun h => exec_append_of_not h.1 h.2⟩
  rintro ⟨err, herr⟩
  refine ⟨fun hholds => ?_, fun hfits => ?_⟩
  · cases herr.symm.trans (exec_append_of_holds hholds)
  · cases herr.symm.trans (exec_append_of_fits hfits)

theorem not_holds_push {l : TranscriptLedger} {e f : SemanticEvent} (hfits : l.Fits f)
    (hholds : ¬ l.Holds e) (hne : e ≠ f) : ¬ (l.push f).Holds e := by
  rintro ⟨i, hi, he⟩
  by_cases hid : e.eventId = f.eventId
  · obtain ⟨j, hj, hf⟩ := holds_push_self hfits
    rw [hid, hj] at hi
    obtain rfl := Option.some.inj hi
    exact hne (Option.some.inj (he.symm.trans hf))
  · refine hholds ⟨i, (Table.get?_insert_of_ne _ _ hid).symm.trans hi, ?_⟩
    have hmem : (l.events ++ [f])[i]? = some e := he
    rcases Nat.lt_or_ge i l.events.length with hlt | hge
    · rwa [List.getElem?_append_left hlt] at hmem
    · rw [List.getElem?_append_right hge] at hmem
      exact absurd (List.mem_singleton.mp (List.mem_of_getElem? hmem)) hne

theorem settles : Settles fun e : Authored => append e.toSemanticEvent := by
  refine ⟨fun l e => ?_, fun l e f h => ?_, fun l e f h => ?_⟩
  · obtain ⟨hholds, h⟩ | ⟨hfits, h⟩ | ⟨-, -, hrefuses⟩ := append_cases l e.toSemanticEvent
    · exact .inl ⟨by rw [h], by rw [h]; exact h⟩
    · rw [h]
      exact .inl ⟨rfl, takes_iff.mpr (holds_push_self hfits)⟩
    · exact .inr hrefuses
  · have hholds := takes_iff.mp h
    exact takes_iff.mpr (append_keeps (I := fun l => l.Holds e.toSemanticEvent) f.toSemanticEvent
      (fun hfits => holds_push hfits hholds) hholds)
  · have hnot := refuses_iff.mp h
    refine refuses_iff.mpr (append_keeps (I := fun l => ¬ l.Holds e.toSemanticEvent ∧
      ¬ l.Fits e.toSemanticEvent) f.toSemanticEvent (fun hfits => ?_) hnot)
    have hne : e.toSemanticEvent ≠ f.toSemanticEvent := fun he => hnot.2 (he ▸ hfits)
    exact ⟨not_holds_push hfits hnot.1 hne, fun hagain => hnot.2 (fits_of_push hfits hagain)⟩

def appendAll (l : TranscriptLedger) (events : List Authored) : TranscriptLedger :=
  deliverAll (fun e : Authored => append e.toSemanticEvent) l events

/-- The ledger is what the events themselves make it, and copies are judged as they were. -/
theorem redelivery_harmless (maxEvents : Nat) (events delivered : List Authored)
    (h : Redelivers events delivered) :
    (withMaxEvents maxEvents).appendAll delivered = (withMaxEvents maxEvents).appendAll events ∧
      ∀ pre mid post : List Authored, ∀ e : Authored, delivered = pre ++ e :: mid ++ e :: post →
        (((append e.toSemanticEvent).exec ((withMaxEvents maxEvents).appendAll pre)).1 = .ok () ↔
          ((append e.toSemanticEvent).exec
            ((withMaxEvents maxEvents).appendAll (pre ++ e :: mid))).1 = .ok ()) :=
  ⟨settles.redelivers _ h, fun pre mid _ e _ => settles.copies _ pre e mid⟩

/-- Two outputs, both sent twice to a ledger that has room for one. -/
theorem redelivery_harmless_full :
    ∃ a b : Authored, (withMaxEvents 1).appendAll [a, b, a, b] = (withMaxEvents 1).appendAll [a, b] ∧
      (withMaxEvents 1).appendAll [a, b] = (withMaxEvents 1).push a.toSemanticEvent ∧
      ((append a.toSemanticEvent).exec ((withMaxEvents 1).appendAll [a, b])).1 = .ok () := by
  let a : Authored := ⟨⟨⟨"a", rfl⟩, 1, 1, .pty, .terminalOutput (0, 8)⟩, rfl⟩
  let b : Authored := ⟨⟨⟨"b", rfl⟩, 2, 1, .pty, .terminalOutput (8, 16)⟩, rfl⟩
  have hsent : Redelivers [a, b] [a, b, a, b] :=
    @Redelivers.again _ _ [a] [a] [] b (@Redelivers.again _ _ [] [b] [] a .refl)
  have h := redelivery_harmless 1 [a, b] [a, b, a, b] hsent
  exact ⟨a, b, h.1, rfl, (h.2 [] [b] [b] a rfl).mp rfl⟩

-- ---------------------------------------------------------------------------
-- The invariant
-- ---------------------------------------------------------------------------

/-- What the ledger says of its events, and what it keeps beside them. -/
structure Invariant (l : TranscriptLedger) : Prop where
  distinct : (l.events.map SemanticEvent.eventId).Nodup
  byId : ∀ id i, l.byId.get? id = some i ↔ (l.events.map SemanticEvent.eventId)[i]? = some id
  sequences : Logged (fun a b => a.sequence < b.sequence) SemanticEvent.sequence l.events
    l.lastSequence
  generation : ∀ e ∈ l.events, e.payload.terminalRange.isSome →
    l.executionGeneration = some e.executionGeneration
  ungenerated : l.ranges = [] → l.executionGeneration = none
  nonempty : ∀ r ∈ l.ranges, r.1 < r.2
  ranges : Logged (fun a b => a.2 ≤ b.1 ∧ b.1 < b.2) Prod.snd l.ranges l.lastTerminalEnd
  commands : ∀ e ∈ l.events, e.payload.isCommand → e.provenance.submits
  exits : ∀ e ∈ l.events, e.payload.isExit → e.provenance = .process
  bounded : l.events.length ≤ l.maxEvents

theorem invariant_withMaxEvents (maxEvents : Nat) : (withMaxEvents maxEvents).Invariant where
  distinct := .nil
  byId := fun _ _ => iff_of_false nofun nofun
  sequences := .nil
  generation := nofun
  ungenerated := fun _ => rfl
  nonempty := nofun
  ranges := .nil
  commands := nofun
  exits := nofun
  bounded := Nat.zero_le _

instance : IsTrans SemanticEvent fun a b => a.sequence < b.sequence :=
  ⟨fun _ _ _ => UInt64.lt_trans⟩

instance : IsTrans (UInt64 × UInt64) fun a b => a.2 ≤ b.1 ∧ b.1 < b.2 where
  trans _ _ _ hab hbc :=
    ⟨UInt64.le_trans hab.1 (UInt64.le_trans (UInt64.le_of_lt hab.2) hbc.1), hbc.2⟩

theorem ranges_push (l : TranscriptLedger) (e : SemanticEvent) :
    (l.push e).ranges = l.ranges ++ e.payload.terminalRange.toList := by
  simp only [TranscriptLedger.ranges, push, List.filterMap_append, List.filterMap_cons,
    List.filterMap_nil]
  cases e.payload.terminalRange with
  | none => rfl
  | some r => rfl

namespace Invariant

theorem eventId_notMem {l : TranscriptLedger} (h : l.Invariant) {e : SemanticEvent}
    (hfits : l.Fits e) : e.eventId ∉ l.events.map SemanticEvent.eventId := by
  intro hmem
  obtain ⟨i, hi⟩ := List.mem_iff_getElem?.mp hmem
  have hknown := (h.byId e.eventId i).mpr hi
  rw [hfits.unknown] at hknown
  cases hknown

theorem byId_push {l : TranscriptLedger} (h : l.Invariant) {e : SemanticEvent} (hfits : l.Fits e)
    (id : EventId) (i : Nat) :
    (l.push e).byId.get? id = some i ↔
      ((l.push e).events.map SemanticEvent.eventId)[i]? = some id := by
  have hids : (l.push e).events.map SemanticEvent.eventId =
      l.events.map SemanticEvent.eventId ++ [e.eventId] := List.map_append
  rw [hids]
  by_cases hid : id = e.eventId
  · subst hid
    rw [getElem?_concat_eq_of_notMem (h.eventId_notMem hfits), List.length_map,
      get?_push_self hfits, Option.some_inj]
  · rw [getElem?_concat_eq_of_ne hid, ← h.byId]
    exact iff_of_eq (congrArg (· = some i) (Table.get?_insert_of_ne _ _ hid))

theorem push {l : TranscriptLedger} (h : l.Invariant) {e : Authored}
    (hfits : l.Fits e.toSemanticEvent) : (l.push e.toSemanticEvent).Invariant := by
  refine ⟨?_, h.byId_push hfits, ?_, ?_, ?_, ?_, ?_, ?_, ?_, ?_⟩
  · exact nodup_map_concat h.distinct (h.eventId_notMem hfits)
  · exact h.sequences.concat fun z hz => hfits.later z.sequence hz
  · intro f hf hrange
    rcases List.mem_append.mp hf with hold | hnew
    · have hgen := h.generation f hold hrange
      cases he : e.payload.terminalRange with
      | none => simpa [TranscriptLedger.push, he] using hgen
      | some r =>
        have hsame := hfits.generation r he _ hgen
        simpa [TranscriptLedger.push, he] using hsame
    · obtain rfl := List.mem_singleton.mp hnew
      obtain ⟨r, hr⟩ := Option.isSome_iff_exists.mp hrange
      simp [TranscriptLedger.push, hr]
  · rw [ranges_push]
    intro hnone
    obtain ⟨hold, hnew⟩ := List.append_eq_nil_iff.mp hnone
    simp only [Option.toList_eq_nil_iff] at hnew
    simpa [TranscriptLedger.push, hnew] using h.ungenerated hold
  · rw [ranges_push]
    intro r hr
    rcases List.mem_append.mp hr with hold | hnew
    · exact h.nonempty r hold
    · exact e.nonempty (Option.mem_toList.mp hnew)
  · rw [ranges_push]
    cases he : e.payload.terminalRange with
    | none => simpa [TranscriptLedger.push, he] using h.ranges
    | some r =>
      have hconcat : Logged _ Prod.snd (l.ranges ++ [r]) (some r.2) :=
        h.ranges.concat fun z hz => ⟨hfits.follows r he z.2 hz, e.nonempty he⟩
      simpa [TranscriptLedger.push, he] using hconcat
  · intro f hf hcommand
    rcases List.mem_append.mp hf with hold | hnew
    · exact h.commands f hold hcommand
    · obtain rfl := List.mem_singleton.mp hnew
      exact e.submits hcommand
  · intro f hf hexit
    rcases List.mem_append.mp hf with hold | hnew
    · exact h.exits f hold hexit
    · obtain rfl := List.mem_singleton.mp hnew
      exact e.exits hexit
  · have hlength : (l.events ++ [e.toSemanticEvent]).length = l.events.length + 1 :=
      List.length_append
    exact hlength.trans_le hfits.room

end Invariant

theorem invariant_appendAll (maxEvents : Nat) (events : List Authored) :
    ((withMaxEvents maxEvents).appendAll events).Invariant :=
  deliverAll_invariant (fun _ e h => append_keeps e.toSemanticEvent h.push h)
    (invariant_withMaxEvents maxEvents) events

theorem append_error {l l' : TranscriptLedger} {e : SemanticEvent} {err : TranscriptError}
    (h : (append e).exec l = (.error err, l')) : l' = l := by
  obtain ⟨-, hok⟩ | ⟨-, hok⟩ | ⟨-, -, err', herr⟩ := append_cases l e
  · cases hok.symm.trans h
  · cases hok.symm.trans h
  · exact (Prod.mk.inj (herr.symm.trans h)).2.symm

/-- Every ledger that appends give, and every append that it refuses. -/
theorem ledger_invariant (maxEvents : Nat) (events : List Authored) :
    ((withMaxEvents maxEvents).appendAll events).Invariant ∧
      ∀ (e : SemanticEvent) (err : TranscriptError) (l : TranscriptLedger),
        (append e).exec ((withMaxEvents maxEvents).appendAll events) = (.error err, l) →
          l = (withMaxEvents maxEvents).appendAll events :=
  ⟨invariant_appendAll maxEvents events, fun _ _ _ h => append_error h⟩

end TranscriptLedger

end Rill.Kernel
