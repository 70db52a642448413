import Mathlib.Algebra.BigOperators.Group.List.Basic
import Mathlib.Algebra.GroupWithZero.Nat
import Mathlib.Data.Finset.Basic
import Rill.Kernel.Ring
import Rill.Lib.Log
import Rill.Lib.Redelivery

/-!
# The content timeline

A leaf's events in order, with the bytes they account for. What is drawn on the
alternate screen is not an event.
-/

namespace Rill.Kernel

open Lib

def saturatingAdd (a b : UInt64) : UInt64 := if a + b < a then 18446744073709551615 else a + b

theorem toNat_saturatingAdd (a b : UInt64) :
    (saturatingAdd a b).toNat = min (a.toNat + b.toNat) u64Max := by
  have hadd : (a + b).toNat = (a.toNat + b.toNat) % 18446744073709551616 := UInt64.toNat_add a b
  have ha : a.toNat < 18446744073709551616 := a.toNat_lt
  have hb : b.toNat < 18446744073709551616 := b.toNat_lt
  unfold saturatingAdd u64Max
  split
  case isTrue h =>
    have hmax : (18446744073709551615 : UInt64).toNat = 18446744073709551615 := rfl
    rw [UInt64.lt_iff_toNat_lt] at h
    omega
  case isFalse h =>
    rw [UInt64.lt_iff_toNat_lt] at h
    omega

def saturatingSub (a b : UInt64) : UInt64 := if b ≤ a then a - b else 0

structure SourceRange where
  generation : UInt64
  start : UInt64
  stop : UInt64
  checkpointId : Option String
  deriving DecidableEq, Repr

inductive RetentionMode
  | disabled
  | memoryOnly
  | durable
  deriving DecidableEq, Repr

structure RetentionPolicy where
  mode : RetentionMode
  limitBytes : Option UInt64
  deriving DecidableEq, Repr

namespace RetentionPolicy

def disabled : RetentionPolicy := ⟨.disabled, none⟩

def memoryOnly (limitBytes : UInt64) : RetentionPolicy := ⟨.memoryOnly, some limitBytes⟩

def durable (limitBytes : Option UInt64) : RetentionPolicy := ⟨.durable, limitBytes⟩

def allowsCapture (p : RetentionPolicy) : Bool := p.mode != .disabled

def cap (p : RetentionPolicy) : UInt64 := p.limitBytes.getD 18446744073709551615

def restrictiveWins (p other : RetentionPolicy) : RetentionPolicy :=
  match p.mode, other.mode with
  | .disabled, _ => p
  | _, .disabled => other
  | .memoryOnly, .memoryOnly => ⟨.memoryOnly, some (min p.cap other.cap)⟩
  | .memoryOnly, .durable => p
  | .durable, .memoryOnly => other
  | .durable, .durable => ⟨.durable, some (min p.cap other.cap)⟩

end RetentionPolicy

inductive ContentKind
  | terminalInput
  | terminalOutput
  | backgroundOutput
  | agentMessage
  | toolCall
  | toolResult
  | approval
  | question
  | diffResult
  | lifecycleEvent
  | discontinuity
  | truncation
  | unstructured
  deriving DecidableEq, Repr

inductive EventAvailability
  | available
  | truncated
  | unavailable
  deriving DecidableEq, Repr

inductive ScreenMode
  | primary
  | alternate
  deriving DecidableEq, Repr

structure ContentEvent where
  eventId : String
  kind : ContentKind
  sequence : UInt64
  parentEventId : Option String
  sourceRange : Option (UInt64 × UInt64)
  availability : EventAvailability
  source : Option SourceRange
  materializedText : Option String
  deriving DecidableEq, Repr

namespace ContentEvent

def new (eventId : String) (kind : ContentKind) (sequence : UInt64) (parentEventId : Option String)
    (sourceRange : Option (UInt64 × UInt64)) : ContentEvent where
  eventId := eventId
  kind := kind
  sequence := sequence
  parentEventId := parentEventId
  sourceRange := sourceRange
  availability := .available
  source := none
  materializedText := none

def structuredTerminalInput (eventId : String) (sequence : UInt64) (text : String) :
    ContentEvent where
  eventId := eventId
  kind := .terminalInput
  sequence := sequence
  parentEventId := none
  sourceRange := none
  availability := .available
  source := none
  materializedText := some text

def truncated (eventId : String) (sequence : UInt64) (range : UInt64 × UInt64) : ContentEvent where
  eventId := eventId
  kind := .truncation
  sequence := sequence
  parentEventId := none
  sourceRange := some range
  availability := .truncated
  source := none
  materializedText := none

/-- The text, and the bytes of the stream or else the id and a header. -/
def sizeHint (e : ContentEvent) : UInt64 :=
  saturatingAdd (e.materializedText.elim 0 fun text => .ofNat text.utf8ByteSize)
    (match e.sourceRange with
      | some (start, stop) => max (saturatingSub stop start) 1
      | none => .ofNat e.eventId.utf8ByteSize + 16)

end ContentEvent

inductive ContentError
  | duplicateEventId (eventId : String)
  | outOfOrderSequence (eventId : String) (expectedAfter got : UInt64)
  | captureDisabled
  | retentionLimitExceeded (limit attempted : UInt64)
  | alternateScreenNotMaterialized
  deriving DecidableEq, Repr

structure ContentTimeline where
  events : List ContentEvent
  ids : Finset String
  lastSequence : Option UInt64
  bytesUsed : UInt64
  screenMode : ScreenMode

namespace ContentTimeline

def new : ContentTimeline where
  events := []
  ids := ∅
  lastSequence := none
  bytesUsed := 0
  screenMode := .primary

def setScreenMode (t : ContentTimeline) (mode : ScreenMode) : ContentTimeline :=
  { t with screenMode := mode }

def acceptsTerminalMaterialization (t : ContentTimeline) : Bool := t.screenMode == .primary

def check (t : ContentTimeline) (event : ContentEvent) : Except ContentError Unit := do
  if event.kind = .terminalOutput ∧ !t.acceptsTerminalMaterialization then
    throw .alternateScreenNotMaterialized
  if event.eventId ∈ t.ids then throw (.duplicateEventId event.eventId)
  if let some last := t.lastSequence then
    if event.sequence ≤ last then throw (.outOfOrderSequence event.eventId last event.sequence)

def push (t : ContentTimeline) (event : ContentEvent) : ContentTimeline :=
  { t with
    ids := insert event.eventId t.ids
    lastSequence := some event.sequence
    bytesUsed := saturatingAdd t.bytesUsed event.sizeHint
    events := t.events ++ [event] }

def append (event : ContentEvent) : Op ContentTimeline ContentError Unit := do
  Op.lift ((← get).check event)
  modify fun t => t.push event

/-- What a policy lets in, whatever else there is to check. -/
def checkUnder (t : ContentTimeline) (policy : RetentionPolicy) (event : ContentEvent) :
    Except ContentError Unit := do
  if !policy.allowsCapture then throw .captureDisabled
  if let some limit := policy.limitBytes then
    let attempted := saturatingAdd t.bytesUsed event.sizeHint
    if attempted > limit then throw (.retentionLimitExceeded limit attempted)

def appendWithPolicy (policy : RetentionPolicy) (event : ContentEvent) :
    Op ContentTimeline ContentError Unit := do
  Op.lift ((← get).checkUnder policy event)
  append event

def appendDiscontinuity (eventId : String) (sequence start stop : UInt64) :
    Op ContentTimeline ContentError Unit :=
  append (.new eventId .discontinuity sequence none (some (start, stop)))

def appendTruncation (eventId : String) (sequence start stop : UInt64) :
    Op ContentTimeline ContentError Unit :=
  append (.truncated eventId sequence (start, stop))

inductive Call
  | append (event : ContentEvent)
  | appendWithPolicy (policy : RetentionPolicy) (event : ContentEvent)
  | appendDiscontinuity (eventId : String) (sequence start stop : UInt64)
  | appendTruncation (eventId : String) (sequence start stop : UInt64)
  | setScreenMode (mode : ScreenMode)
  deriving DecidableEq, Repr

namespace Call

def run : Call → Op ContentTimeline ContentError Unit
  | append event => ContentTimeline.append event
  | appendWithPolicy policy event => ContentTimeline.appendWithPolicy policy event
  | appendDiscontinuity id sequence start stop =>
    ContentTimeline.appendDiscontinuity id sequence start stop
  | appendTruncation id sequence start stop => ContentTimeline.appendTruncation id sequence start stop
  | setScreenMode mode => modify fun t => t.setScreenMode mode

def limit : Call → Option UInt64
  | appendWithPolicy policy _ => policy.limitBytes
  | _ => none

end Call

-- ---------------------------------------------------------------------------
-- What a call does
-- ---------------------------------------------------------------------------

/-- The event passes the checks that every addition makes. -/
structure Fits (t : ContentTimeline) (e : ContentEvent) : Prop where
  shown : e.kind = .terminalOutput → t.screenMode = .primary
  unknown : e.eventId ∉ t.ids
  later : ∀ last, t.lastSequence = some last → last < e.sequence

theorem check_eq_ok {t : ContentTimeline} {e : ContentEvent} : t.check e = .ok () ↔ t.Fits e := by
  unfold check
  rw [guard_eq_ok, guard_eq_ok]
  have hshown : ¬ (e.kind = .terminalOutput ∧ (!t.acceptsTerminalMaterialization) = true) ↔
      (e.kind = .terminalOutput → t.screenMode = .primary) := by
    simp [acceptsTerminalMaterialization]
  rw [hshown]
  have hfits : t.Fits e ↔ (e.kind = .terminalOutput → t.screenMode = .primary) ∧
      e.eventId ∉ t.ids ∧ ∀ last, t.lastSequence = some last → last < e.sequence :=
    ⟨fun h => ⟨h.shown, h.unknown, h.later⟩, fun h => ⟨h.1, h.2.1, h.2.2⟩⟩
  rw [hfits]
  refine and_congr_right fun _ => and_congr_right fun _ => ?_
  cases t.lastSequence with
  | none => exact iff_of_true rfl nofun
  | some last => simp [last_guard_eq_ok]

theorem checkUnder_ok {t : ContentTimeline} {policy : RetentionPolicy} {e : ContentEvent}
    (h : t.checkUnder policy e = .ok ()) {limit : UInt64} (hlimit : policy.limitBytes = some limit) :
    saturatingAdd t.bytesUsed e.sizeHint ≤ limit := by
  unfold checkUnder at h
  rw [guard_eq_ok, hlimit] at h
  exact UInt64.not_lt.mp (last_guard_eq_ok.mp h.2)

theorem append_cases (t : ContentTimeline) (e : ContentEvent) :
    (t.Fits e ∧ (append e).exec t = (.ok (), t.push e)) ∨
      ∃ err, ¬ t.Fits e ∧ (append e).exec t = (.error err, t) := by
  have hrun : (append e).exec t = (Op.lift (t.check e) >>= fun _ => modify fun t => t.push e).exec t :=
    Op.exec_get_bind _ _
  rw [hrun]
  cases hcheck : t.check e with
  | ok _ => exact .inl ⟨check_eq_ok.mp hcheck, rfl⟩
  | error err =>
    refine .inr ⟨err, fun hfits => ?_, rfl⟩
    rw [check_eq_ok.mpr hfits] at hcheck
    cases hcheck

/-- A call adds one event that fits, or sets the mode, or is refused and does nothing. -/
inductive Does (t : ContentTimeline) : Call → Except ContentError Unit × ContentTimeline → Prop
  | adds (e : ContentEvent) (hfits : t.Fits e)
      (hlimit : ∀ limit, call.limit = some limit → saturatingAdd t.bytesUsed e.sizeHint ≤ limit) :
      Does t call (.ok (), t.push e)
  | sets (mode : ScreenMode) : Does t (.setScreenMode mode) (.ok (), t.setScreenMode mode)
  | refuses (err : ContentError) : Does t call (.error err, t)

theorem does_append {t : ContentTimeline} {e : ContentEvent} {call : Call}
    (hlimit : ∀ limit, call.limit = some limit → saturatingAdd t.bytesUsed e.sizeHint ≤ limit) :
    t.Does call ((append e).exec t) := by
  obtain ⟨hfits, h⟩ | ⟨err, -, h⟩ := append_cases t e
  · rw [h]
    exact .adds e hfits hlimit
  · rw [h]
    exact .refuses err

theorem does_run (t : ContentTimeline) (call : Call) : t.Does call (call.run.exec t) := by
  cases call with
  | append e => exact does_append nofun
  | appendDiscontinuity id sequence start stop => exact does_append nofun
  | appendTruncation id sequence start stop => exact does_append nofun
  | setScreenMode mode => exact .sets mode
  | appendWithPolicy policy e =>
    have hrun : (Call.appendWithPolicy policy e).run.exec t =
        (Op.lift (t.checkUnder policy e) >>= fun _ => append e).exec t := Op.exec_get_bind _ _
    rw [hrun]
    cases hcheck : t.checkUnder policy e with
    | error err => exact .refuses err
    | ok _ => exact does_append fun limit hlimit => checkUnder_ok hcheck hlimit

-- ---------------------------------------------------------------------------
-- The invariant
-- ---------------------------------------------------------------------------

def callAll (t : ContentTimeline) (calls : List Call) : ContentTimeline :=
  deliverAll Call.run t calls

/-- What the timeline keeps beside its events is what they say. -/
structure Invariant (t : ContentTimeline) : Prop where
  ids : ∀ id, id ∈ t.ids ↔ id ∈ t.events.map ContentEvent.eventId
  distinct : (t.events.map ContentEvent.eventId).Nodup
  sequences : Logged (fun a b => a.sequence < b.sequence) ContentEvent.sequence t.events
    t.lastSequence
  bytesUsed : t.bytesUsed.toNat = min (t.events.map fun e => e.sizeHint.toNat).sum u64Max

theorem invariant_new : new.Invariant := ⟨fun _ => iff_of_false (Finset.notMem_empty _) nofun, .nil, .nil, rfl⟩

instance : IsTrans ContentEvent fun a b => a.sequence < b.sequence :=
  ⟨fun _ _ _ => UInt64.lt_trans⟩

namespace Invariant

theorem push {t : ContentTimeline} (h : t.Invariant) {e : ContentEvent} (hfits : t.Fits e) :
    (t.push e).Invariant := by
  refine ⟨?_, ?_, ?_, ?_⟩
  · intro id
    have hids : (t.push e).ids = insert e.eventId t.ids := rfl
    have hevents : (t.push e).events = t.events ++ [e] := rfl
    rw [hids, hevents, Finset.mem_insert, h.ids, List.map_append, List.mem_append, or_comm,
      List.map_singleton, List.mem_singleton]
  · exact nodup_map_concat h.distinct fun hmem => hfits.unknown ((h.ids _).mpr hmem)
  · exact h.sequences.concat fun z hz => hfits.later z.sequence hz
  · have hbytes : (t.push e).bytesUsed.toNat = min (t.bytesUsed.toNat + e.sizeHint.toNat) u64Max :=
      toNat_saturatingAdd _ _
    have hsum : ((t.push e).events.map fun e => e.sizeHint.toNat).sum =
        (t.events.map fun e => e.sizeHint.toNat).sum + e.sizeHint.toNat := by
      simp [ContentTimeline.push]
    rw [hbytes, hsum, h.bytesUsed]
    omega

theorem run {t : ContentTimeline} (h : t.Invariant) (call : Call) :
    (call.run.exec t).2.Invariant := by
  have hdoes := does_run t call
  generalize call.run.exec t = r at hdoes
  cases hdoes with
  | adds e hfits hlimit => exact h.push hfits
  | sets mode => exact ⟨h.ids, h.distinct, h.sequences, h.bytesUsed⟩
  | refuses err => exact h

end Invariant

theorem invariant_callAll (calls : List Call) : (new.callAll calls).Invariant :=
  deliverAll_invariant (fun _ call h => h.run call) invariant_new calls

/-- The calls that added an event were held to at most `L`. -/
def Limited (L : UInt64) (t : ContentTimeline) (calls : List Call) : Prop :=
  ∀ (pre : List Call) (call : Call) (post : List Call), calls = pre ++ call :: post →
    (t.callAll (pre ++ [call])).events ≠ (t.callAll pre).events →
      ∃ limit, call.limit = some limit ∧ limit ≤ L

theorem bytesUsed_le {L : UInt64} {t : ContentTimeline} (ht : t.bytesUsed ≤ L) {calls : List Call}
    (h : Limited L t calls) : (t.callAll calls).bytesUsed ≤ L := by
  induction calls using List.reverseRecOn with
  | nil => exact ht
  | append_singleton calls call ih =>
    have hbefore : (t.callAll calls).bytesUsed ≤ L := by
      refine ih fun pre c post hcalls => h pre c (post ++ [call]) ?_
      rw [hcalls, List.append_assoc, List.cons_append]
    have hadded := h calls call [] rfl
    have hlast : t.callAll (calls ++ [call]) = (call.run.exec (t.callAll calls)).2 :=
      deliverAll_append t calls [call]
    rw [hlast] at hadded ⊢
    have hdoes := does_run (t.callAll calls) call
    generalize call.run.exec (t.callAll calls) = r at hadded hdoes
    cases hdoes with
    | adds e hfits hlimit =>
      obtain ⟨limit, hcall, hle⟩ := hadded (by simp [push])
      exact UInt64.le_trans (hlimit limit hcall) hle
    | sets mode => exact hbefore
    | refuses err => exact hbefore

/-- Every timeline that calls give, and every call on it. -/
theorem timeline_invariant (calls : List Call) :
    (new.callAll calls).Invariant ∧
      (∀ call : Call, (new.callAll calls).screenMode = .alternate →
        ∀ e ∈ (call.run.exec (new.callAll calls)).2.events, e.kind = .terminalOutput →
          e ∈ (new.callAll calls).events) ∧
      (∀ L, Limited L new calls → (new.callAll calls).bytesUsed ≤ L) ∧
      ∀ (call : Call) err t, call.run.exec (new.callAll calls) = (.error err, t) →
        t = new.callAll calls := by
  refine ⟨invariant_callAll calls, fun call hmode e he hkind => ?_, fun L hL => ?_,
    fun call err t herr => ?_⟩
  · have hdoes := does_run (new.callAll calls) call
    generalize call.run.exec (new.callAll calls) = r at hdoes he
    cases hdoes with
    | adds f hfits hlimit =>
      rcases List.mem_append.mp he with hold | hnew
      · exact hold
      · obtain rfl := List.mem_singleton.mp hnew
        cases hmode.symm.trans (hfits.shown hkind)
    | sets mode => exact he
    | refuses err => exact he
  · exact bytesUsed_le (UInt64.zero_le) hL
  · have hdoes := does_run (new.callAll calls) call
    rw [herr] at hdoes
    cases hdoes
    rfl

end ContentTimeline

end Rill.Kernel
