import Rill.Daemon.Daemon
import Rill.Kernel.Content
import Rill.Lib.Runs
import Rill.Lib.Text

/-!
# The content channel

What a leaf's structured input is recorded as. A request names a leaf and
submits a text or asks for what there is; the answer is a status and, when the
request is served, the leaf's timeline.
-/

namespace Rill

open Lib Lib.Bytes Kernel

namespace Daemon

def contentRequestMax : Nat := 64 * 1024

def contentTimelineMaxItems : Nat := 64

def contentResponseMax : Nat := 1024 * 1024

def contentMagic : List UInt8 := [0x52, 0x4c, 0x43, 0x31]

structure ContentRequest where
  kind : UInt8
  execution : UInt64
  payload : List UInt8
  deriving DecidableEq, Repr

/-- `none` when there is more to come. -/
def decodeContentRequest (bytes : List UInt8) : Except Unit (Option ContentRequest) :=
  if bytes.length < 17 then .ok none
  else if bytes.take 4 ≠ contentMagic then .error ()
  else
    let execution := UInt64.ofNat (ofBe (part bytes 5 13))
    let payloadLen := ofBe (part bytes 13 17)
    if payloadLen > contentRequestMax then .error ()
    else
      let total := 17 + payloadLen
      if bytes.length < total then .ok none
      else if bytes.length ≠ total then .error ()
      else .ok (some ⟨bytes.getD 4 0, execution, part bytes 17 total⟩)

def contentErrorResponse (status : UInt8) : List UInt8 := contentMagic ++ [status] ++ toBe 4 0

def kindCode : ContentKind → UInt8
  | .terminalInput => 1
  | .terminalOutput => 2
  | .backgroundOutput => 3
  | .discontinuity => 11
  | .truncation => 12
  | _ => 13

def idBytes (e : ContentEvent) : List UInt8 := asBytes e.eventId

def textBytes (e : ContentEvent) : List UInt8 := asBytes (e.materializedText.getD "")

def itemLen (e : ContentEvent) : Nat := 15 + (idBytes e).length + (textBytes e).length

def encodeItem (e : ContentEvent) : List UInt8 :=
  [kindCode e.kind] ++ toBe 8 e.sequence.toNat ++ toBe 2 (idBytes e).length ++
    toBe 4 (textBytes e).length ++ idBytes e ++ textBytes e

/-- The loop over the events, with the bytes and the count it has reached. It
stops at the first event that does not fit any more. -/
def encodeItems (items : List UInt8) (count : Nat) : List ContentEvent → List UInt8 × Nat
  | [] => (items, count)
  | e :: events =>
    if (idBytes e).length > 65535 || (textBytes e).length > contentRequestMax ||
        9 + items.length + itemLen e > contentResponseMax then
      (items, count)
    else encodeItems (items ++ encodeItem e) (count + 1) events

def encodeContentSnapshot (timeline : ContentTimeline) : List UInt8 :=
  let (items, count) := encodeItems [] 0 timeline.events
  contentMagic ++ [0] ++ toBe 4 count ++ items

/-- `input-{id}-{sequence}`. -/
def inputId (id : SessionId) (sequence : UInt64) : String :=
  "input-" ++ id.raw.toNat.repr ++ "-" ++ sequence.toNat.repr

def inputEvent (id : SessionId) (sequence : UInt64) (text : String) : ContentEvent :=
  .structuredTerminalInput (inputId id sequence) sequence text

/-- What a request does to the timeline of its leaf; it fails with a status. -/
def serveContent (id : SessionId) (request : ContentRequest) : Op ContentTimeline UInt8 Unit := do
  if request.kind = 2 then
    let timeline ← get
    if timeline.events.length ≥ contentTimelineMaxItems then throw 3
    match fromUtf8 request.payload with
    | none => throw 1
    | some text =>
      let sequence := UInt64.ofNat timeline.events.length + 1
      Op.mapError (fun _ => 3) (ContentTimeline.append (inputEvent id sequence text))
  else if request.kind ≠ 1 || !request.payload.isEmpty then throw 1

abbrev Timelines := Table SessionId ContentTimeline

/-- Execution 0 is the default leaf. -/
def contentLeaf (d : Daemon) (request : ContentRequest) : SessionId :=
  if request.execution = 0 then d.defaultId else ⟨request.execution⟩

def contentAnswer (timeline : ContentTimeline) : Except UInt8 Unit → List UInt8
  | .ok () => encodeContentSnapshot timeline
  | .error status => contentErrorResponse status

/-- The response, and the timelines after the request. -/
def contentResponse (d : Daemon) (request : ContentRequest) (timelines : Timelines) :
    List UInt8 × Timelines :=
  let id := d.contentLeaf request
  if (d.session id).isNone then (contentErrorResponse 2, timelines)
  else
    let timelines := timelines.insert id .new
    let (outcome, timeline) := (serveContent id request).exec ((timelines.get? id).getD .new)
    (contentAnswer timeline outcome, timelines.set id timeline)

-- ---------------------------------------------------------------------------
-- What a request does
-- ---------------------------------------------------------------------------

def timelineOf (timelines : Timelines) (id : SessionId) : ContentTimeline :=
  (timelines.get? id).getD .new

/-- The event that a submission of `text` adds to a timeline. -/
def nextInput (id : SessionId) (t : ContentTimeline) (text : String) : ContentEvent :=
  inputEvent id (UInt64.ofNat t.events.length + 1) text

/-- A submission that a timeline has no room for, or no text in it. -/
def Unfit (id : SessionId) (request : ContentRequest) (t : ContentTimeline) : Prop :=
  contentTimelineMaxItems ≤ t.events.length ∨ fromUtf8 request.payload = none ∨
    ∃ text, fromUtf8 request.payload = some text ∧ ¬ t.Fits (nextInput id t text)

/-- What comes of a request: the text submitted is recorded, or the timeline is
only shown, or the request is refused and the timeline left as it is. -/
inductive Serves (id : SessionId) (request : ContentRequest) (t : ContentTimeline) :
    Except UInt8 Unit × ContentTimeline → Prop
  | records (text : String) (hkind : request.kind = 2)
      (hroom : t.events.length < contentTimelineMaxItems)
      (htext : fromUtf8 request.payload = some text) (hfits : t.Fits (nextInput id t text)) :
      Serves id request t (.ok (), t.push (nextInput id t text))
  | shows (hkind : request.kind = 1) (hempty : request.payload = []) : Serves id request t (.ok (), t)
  | unfit (status : UInt8) (hstatus : status ≠ 0) (hkind : request.kind = 2)
      (hunfit : Unfit id request t) : Serves id request t (.error status, t)
  | unknown (hkind : request.kind ≠ 2) (hother : request.kind ≠ 1 ∨ request.payload ≠ []) :
      Serves id request t (.error 1, t)

theorem serves (id : SessionId) (request : ContentRequest) (t : ContentTimeline) :
    Serves id request t ((serveContent id request).exec t) := by
  unfold serveContent
  by_cases hkind : request.kind = 2
  · rw [if_pos hkind, Op.exec_get_bind]
    by_cases hfull : t.events.length ≥ contentTimelineMaxItems
    · rw [Op.exec_guard_pos hfull]
      exact .unfit 3 (by decide) hkind (.inl hfull)
    · rw [Op.exec_guard_neg hfull]
      have hroom : t.events.length < contentTimelineMaxItems := Nat.not_le.mp hfull
      cases htext : fromUtf8 request.payload with
      | none => exact .unfit 1 (by decide) hkind (.inr (.inl htext))
      | some text =>
        have hrun : ∀ r, (ContentTimeline.append (nextInput id t text)).exec t = r →
            Serves id request t (r.1.mapError fun _ => 3, r.2) →
            Serves id request t ((Op.mapError (fun _ => 3)
              (ContentTimeline.append (nextInput id t text))).exec t) := by
          rintro _ rfl h
          exact h
        obtain ⟨hfits, happend⟩ | ⟨err, hfits, happend⟩ :=
          ContentTimeline.append_cases t (nextInput id t text)
        · exact hrun _ happend (.records text hkind hroom htext hfits)
        · exact hrun _ happend (.unfit 3 (by decide) hkind (.inr (.inr ⟨text, htext, hfits⟩)))
  · rw [if_neg hkind]
    by_cases hother : (request.kind ≠ 1 || !request.payload.isEmpty) = true
    · rw [if_pos hother]
      refine .unknown hkind ?_
      simpa using hother
    · rw [if_neg hother]
      simp only [Bool.or_eq_true, decide_eq_true_eq, Bool.not_eq_true', not_or, not_not,
        Bool.not_eq_false, List.isEmpty_iff] at hother
      exact .shows hother.1 hother.2

def responseStatus (response : List UInt8) : Option UInt8 := response[4]?

theorem status_contentErrorResponse (status : UInt8) :
    responseStatus (contentErrorResponse status) = some status := rfl

theorem status_encodeContentSnapshot (t : ContentTimeline) :
    responseStatus (encodeContentSnapshot t) = some 0 := rfl

/-- A request for an unknown leaf is refused as such; any other is served from the
timeline of its leaf, and the timelines of the other leaves stay. -/
inductive Answers (d : Daemon) (request : ContentRequest) (timelines : Timelines) :
    List UInt8 × Timelines → Prop
  | stranger (hnone : d.session (d.contentLeaf request) = none) :
      Answers d request timelines (contentErrorResponse 2, timelines)
  | served {outcome : Except UInt8 Unit} {t : ContentTimeline} {after : Timelines}
      (hsome : (d.session (d.contentLeaf request)).isSome)
      (hserves : Serves (d.contentLeaf request) request
        (timelineOf timelines (d.contentLeaf request)) (outcome, t))
      (hafter : ∀ id, after.get? id = if id = d.contentLeaf request then some t else timelines.get? id) :
      Answers d request timelines (contentAnswer t outcome, after)

theorem timelineOf_served {leaf : SessionId} {t : ContentTimeline} {timelines after : Timelines}
    (hafter : ∀ id, after.get? id = if id = leaf then some t else timelines.get? id) (id : SessionId) :
    timelineOf after id = if id = leaf then t else timelineOf timelines id := by
  rw [timelineOf, hafter]
  split <;> rfl

theorem answers (d : Daemon) (request : ContentRequest) (timelines : Timelines) :
    Answers d request timelines (d.contentResponse request timelines) := by
  unfold contentResponse
  dsimp only
  split
  case isTrue hnone => exact .stranger (Option.isNone_iff_eq_none.mp hnone)
  case isFalse hsome =>
    rw [Table.get?_insert_getD]
    refine .served ?_ (serves _ request _) fun id => Table.get?_insert_set _ _ _ _ id
    rwa [Bool.not_eq_true, Option.isNone_eq_false_iff] at hsome

-- ---------------------------------------------------------------------------
-- Numbers and names
-- ---------------------------------------------------------------------------

theorem inputId_inj {id : SessionId} {a b : UInt64} : inputId id a = inputId id b ↔ a = b := by
  rw [inputId, inputId, String.append_right_inj, repr_inj, UInt64.toNat_inj]

theorem inputId_ne_empty (id : SessionId) (sequence : UInt64) : inputId id sequence ≠ "" := by
  simp [inputId]

theorem length_inputId (id : SessionId) (sequence : UInt64) :
    (asBytes (inputId id sequence)).length ≤ 65535 := by
  have hword : ∀ n : UInt64, n.toNat.repr.length ≤ 20 := by
    intro n
    have hn := n.toNat_lt
    rw [Nat.length_repr_le_iff (by decide)]
    omega
  have hid := hword id.raw
  have hsequence := hword sequence
  have hlen := length_asBytes_le (inputId id sequence)
  have hchars : (inputId id sequence).length =
      6 + id.raw.toNat.repr.length + 1 + sequence.toNat.repr.length := by
    simp only [inputId, String.length_append]
    rfl
  omega

def numbered (id : SessionId) (texts : List String) : List ContentEvent :=
  texts.mapIdx fun i text => inputEvent id (UInt64.ofNat i + 1) text

theorem length_numbered (id : SessionId) (texts : List String) :
    (numbered id texts).length = texts.length := List.length_mapIdx

theorem numbered_concat (id : SessionId) (texts : List String) (text : String) :
    numbered id (texts ++ [text]) =
      numbered id texts ++ [inputEvent id (UInt64.ofNat texts.length + 1) text] := by
  simp [numbered, List.mapIdx_append]

theorem sequence_toNat {n : Nat} (h : n < contentTimelineMaxItems) :
    (UInt64.ofNat n + 1).toNat = n + 1 := by
  have hmax : contentTimelineMaxItems = 64 := rfl
  have hn : (UInt64.ofNat n).toNat = n := UInt64.toNat_ofNat_of_lt' (by rw [UInt64.size]; omega)
  rw [UInt64.toNat_add, hn, UInt64.toNat_one]
  omega

theorem mem_numbered {id : SessionId} {texts : List String} {e : ContentEvent}
    (hlen : texts.length ≤ contentTimelineMaxItems) (he : e ∈ numbered id texts) :
    e.sequence.toNat ≤ texts.length ∧ e.eventId = inputId id e.sequence := by
  obtain ⟨i, hi, rfl⟩ := List.mem_mapIdx.mp he
  refine ⟨?_, rfl⟩
  have hseq : (UInt64.ofNat i + 1).toNat = i + 1 := sequence_toNat (by omega)
  exact Nat.le_trans (Nat.le_of_eq hseq) hi

-- ---------------------------------------------------------------------------
-- The record of a leaf
-- ---------------------------------------------------------------------------

structure Recorded (id : SessionId) (t : ContentTimeline) (texts : List String) : Prop where
  invariant : t.Invariant
  events : t.events = numbered id texts
  bounded : texts.length ≤ contentTimelineMaxItems

namespace Recorded

variable {id : SessionId} {t : ContentTimeline} {texts : List String}

theorem new (id : SessionId) : Recorded id .new [] :=
  ⟨ContentTimeline.invariant_new, rfl, Nat.zero_le _⟩

theorem length_events (h : Recorded id t texts) : t.events.length = texts.length := by
  rw [h.events, length_numbered]

/-- While there is room, the next submission's name is new and its number later. -/
theorem fits (h : Recorded id t texts) (hroom : t.events.length < contentTimelineMaxItems)
    (text : String) : t.Fits (nextInput id t text) := by
  have hseq : (nextInput id t text).sequence.toNat = texts.length + 1 := by
    rw [← h.length_events]
    exact sequence_toNat hroom
  have hbefore : ∀ e ∈ t.events, e.sequence < (nextInput id t text).sequence := by
    intro e he
    rw [h.events] at he
    have hle := (mem_numbered h.bounded he).1
    rw [UInt64.lt_iff_toNat_lt]
    omega
  refine ⟨nofun, fun hmem => ?_, fun last hlast => ?_⟩
  · obtain ⟨e, he, hname⟩ := List.mem_map.mp ((h.invariant.ids _).mp hmem)
    have hlt := hbefore e he
    rw [h.events] at he
    rw [(mem_numbered h.bounded he).2] at hname
    have hsame : e.sequence = (nextInput id t text).sequence := inputId_inj.mp hname
    rw [hsame] at hlt
    exact UInt64.lt_irrefl _ hlt
  · rw [h.invariant.sequences.last] at hlast
    obtain ⟨e, he, rfl⟩ := Option.map_eq_some_iff.mp hlast
    exact hbefore e (List.mem_of_getLast? he)

theorem push (h : Recorded id t texts) (hroom : t.events.length < contentTimelineMaxItems)
    (text : String) : Recorded id (t.push (nextInput id t text)) (texts ++ [text]) := by
  refine ⟨h.invariant.push (h.fits hroom text), ?_, ?_⟩
  · rw [numbered_concat, ← h.length_events, ← h.events]
    rfl
  · rw [List.length_append, List.length_singleton, ← h.length_events]
    exact hroom

end Recorded

-- ---------------------------------------------------------------------------
-- Runs
-- ---------------------------------------------------------------------------

/-- The timelines after a request, with the daemon as it stands at the time. -/
def contentNext (timelines : Timelines) (call : Daemon × ContentRequest) : Timelines :=
  (call.1.contentResponse call.2 timelines).2

def contentRun (calls : List (Daemon × ContentRequest)) : Timelines :=
  calls.foldl contentNext Table.empty

/-- What a request submits to the leaf, if that is what it does and the response
has status 0. -/
def submitted (leaf : SessionId) (call : Daemon × ContentRequest) (response : List UInt8) :
    List (List UInt8) :=
  if call.1.contentLeaf call.2 = leaf ∧ call.2.kind = 2 ∧ responseStatus response = some 0 then
    [call.2.payload]
  else []

def accepted (leaf : SessionId) (calls : List (Daemon × ContentRequest)) : List (List UInt8) :=
  along contentNext
    (fun timelines call => submitted leaf call (call.1.contentResponse call.2 timelines).1)
    Table.empty calls

/-- One request adds what it submits if it is accepted, and nothing if it is not. -/
theorem Recorded.next {leaf : SessionId} {timelines : Timelines} {texts : List String}
    (h : Recorded leaf (timelineOf timelines leaf) texts) (call : Daemon × ContentRequest) :
    ∃ more : List String,
      more.map asBytes = submitted leaf call (call.1.contentResponse call.2 timelines).1 ∧
        Recorded leaf (timelineOf (contentNext timelines call) leaf) (texts ++ more) := by
  have hanswers := answers call.1 call.2 timelines
  unfold contentNext
  generalize call.1.contentResponse call.2 timelines = r at hanswers ⊢
  cases hanswers with
  | stranger hnone =>
    refine ⟨[], ?_, by rwa [List.append_nil]⟩
    rw [submitted, if_neg fun hc => ?_, List.map_nil]
    rw [status_contentErrorResponse] at hc
    exact absurd hc.2.2 (by decide)
  | @served outcome t after hsome hserves hafter =>
    have hkept := timelineOf_served hafter leaf
    dsimp only
    by_cases hleaf : call.1.contentLeaf call.2 = leaf
    · rw [hkept, if_pos hleaf.symm]
      rw [hleaf] at hserves
      cases hserves with
      | records text hkind hroom htext hfits =>
        refine ⟨[text], ?_, h.push hroom text⟩
        rw [submitted, if_pos ⟨hleaf, hkind, status_encodeContentSnapshot _⟩, List.map_singleton,
          asBytes_of_fromUtf8 htext]
      | shows hkind hempty =>
        refine ⟨[], ?_, by rwa [List.append_nil]⟩
        rw [submitted, if_neg fun hc => ?_, List.map_nil]
        rw [hkind] at hc
        exact absurd hc.2.1 (by decide)
      | unfit status hstatus hkind hunfit =>
        refine ⟨[], ?_, by rwa [List.append_nil]⟩
        rw [submitted, if_neg fun hc => ?_, List.map_nil]
        exact hstatus (Option.some.inj hc.2.2)
      | unknown hkind hother =>
        refine ⟨[], ?_, by rwa [List.append_nil]⟩
        rw [submitted, if_neg fun hc => hkind hc.2.1, List.map_nil]
    · refine ⟨[], ?_, ?_⟩
      · rw [submitted, if_neg fun hc => hleaf hc.1, List.map_nil]
      · rwa [List.append_nil, hkept, if_neg fun hc => hleaf hc.symm]

theorem recorded_run (leaf : SessionId) (calls : List (Daemon × ContentRequest)) :
    ∃ texts : List String, texts.map asBytes = accepted leaf calls ∧
      Recorded leaf (timelineOf (contentRun calls) leaf) texts := by
  have hrun := @along_rel _ _ _ contentNext
    (fun timelines call => submitted leaf call (call.1.contentResponse call.2 timelines).1)
    (fun s _ out t => ∀ texts, Recorded leaf (timelineOf s leaf) texts →
      ∃ more : List String, more.map asBytes = out ∧ Recorded leaf (timelineOf t leaf) (texts ++ more))
    (fun s texts h => ⟨[], rfl, by rwa [List.append_nil]⟩)
    (fun s call calls out t ih texts h => by
      obtain ⟨first, hfirst, hnext⟩ := h.next call
      obtain ⟨more, hmore, hlast⟩ := ih _ hnext
      refine ⟨first ++ more, by rw [List.map_append, hfirst, hmore], ?_⟩
      rwa [← List.append_assoc])
    Table.empty calls
  obtain ⟨texts, htexts, h⟩ := hrun [] (.new leaf)
  exact ⟨texts, htexts, h⟩

/-- What a request must be to be served: for a leaf there is, and a text that there
is room for or an empty question. -/
def Acceptable (timelines : Timelines) (d : Daemon) (request : ContentRequest) : Prop :=
  (d.session (d.contentLeaf request)).isSome ∧
    (request.kind = 2 ∧
        (timelineOf timelines (d.contentLeaf request)).events.length < contentTimelineMaxItems ∧
        (fromUtf8 request.payload).isSome ∨
      request.kind = 1 ∧ request.payload = [])

/-- On the timelines that requests make, every request that can be served is. -/
theorem status_eq_zero_iff {timelines : Timelines} {d : Daemon} {request : ContentRequest}
    {texts : List String}
    (h : Recorded (d.contentLeaf request) (timelineOf timelines (d.contentLeaf request)) texts) :
    responseStatus (d.contentResponse request timelines).1 = some 0 ↔
      Acceptable timelines d request := by
  have hanswers := answers d request timelines
  generalize d.contentResponse request timelines = r at hanswers ⊢
  cases hanswers with
  | stranger hnone =>
    have htwo : responseStatus (contentErrorResponse 2) = some 2 := status_contentErrorResponse 2
    refine iff_of_false (fun hzero => absurd (htwo.symm.trans hzero) (by decide)) fun hc => ?_
    have hsome := hc.1
    rw [hnone] at hsome
    cases hsome
  | served hsome hserves hafter =>
    cases hserves with
    | records text hkind hroom htext hfits =>
      refine iff_of_true (status_encodeContentSnapshot _) ⟨hsome, .inl ⟨hkind, hroom, ?_⟩⟩
      rw [htext, Option.isSome_some]
    | shows hkind hempty =>
      exact iff_of_true (status_encodeContentSnapshot _) ⟨hsome, .inr ⟨hkind, hempty⟩⟩
    | unfit status hstatus hkind hunfit =>
      refine iff_of_false (fun hzero => hstatus (Option.some.inj hzero)) ?_
      rintro ⟨-, ⟨-, hroom, htext⟩ | ⟨hone, -⟩⟩
      · rcases hunfit with hfull | hnone | ⟨text, -, hfits⟩
        · exact Nat.not_lt.mpr hfull hroom
        · rw [hnone] at htext
          cases htext
        · exact hfits (h.fits hroom text)
      · rw [hkind] at hone
        exact absurd hone (by decide)
    | unknown hkind hother =>
      refine iff_of_false (fun hzero => absurd (Option.some.inj hzero) (by decide)) ?_
      rintro ⟨-, ⟨htwo, -⟩ | ⟨hone, hempty⟩⟩
      · exact hkind htwo
      · exact hother.elim (fun hne => hne hone) fun hne => hne hempty

theorem contentResponse_accepted {d : Daemon} {request : ContentRequest} {timelines : Timelines}
    (hkind : request.kind = 2)
    (h : responseStatus (d.contentResponse request timelines).1 = some 0) :
    ∃ text, fromUtf8 request.payload = some text ∧
      (timelineOf timelines (d.contentLeaf request)).Fits
        (nextInput (d.contentLeaf request) (timelineOf timelines (d.contentLeaf request)) text) ∧
      (timelineOf timelines (d.contentLeaf request)).events.length < contentTimelineMaxItems ∧
      (d.contentResponse request timelines).1 =
        encodeContentSnapshot ((timelineOf timelines (d.contentLeaf request)).push
          (nextInput (d.contentLeaf request) (timelineOf timelines (d.contentLeaf request)) text)) := by
  have hanswers := answers d request timelines
  generalize d.contentResponse request timelines = r at hanswers h ⊢
  cases hanswers with
  | stranger hnone =>
    have htwo : responseStatus (contentErrorResponse 2) = some 2 := status_contentErrorResponse 2
    exact absurd (htwo.symm.trans h) (by decide)
  | served hsome hserves hafter =>
    cases hserves with
    | records text _ hroom htext hfits => exact ⟨text, htext, hfits, hroom, rfl⟩
    | shows hone hempty =>
      rw [hkind] at hone
      exact absurd hone (by decide)
    | unfit status hstatus _ hunfit => exact absurd (Option.some.inj h) hstatus
    | unknown hne hother => exact absurd hkind hne

theorem contentResponse_get?_of_ne {d : Daemon} {request : ContentRequest} {id : SessionId}
    (h : id ≠ d.contentLeaf request) (timelines : Timelines) :
    (d.contentResponse request timelines).2.get? id = timelines.get? id := by
  have hanswers := answers d request timelines
  generalize d.contentResponse request timelines = r at hanswers ⊢
  cases hanswers with
  | stranger hnone => rfl
  | served hsome hserves hafter => rw [hafter, if_neg h]

theorem timelineOf_refused {d : Daemon} {request : ContentRequest} {timelines : Timelines}
    (h : responseStatus (d.contentResponse request timelines).1 ≠ some 0) (id : SessionId) :
    timelineOf (d.contentResponse request timelines).2 id = timelineOf timelines id := by
  have hanswers := answers d request timelines
  generalize d.contentResponse request timelines = r at hanswers h ⊢
  cases hanswers with
  | stranger hnone => rfl
  | served hsome hserves hafter =>
    rw [timelineOf_served hafter]
    split
    case isFalse => rfl
    case isTrue hid =>
      subst hid
      cases hserves with
      | records text hkind hroom htext hfits => exact absurd (status_encodeContentSnapshot _) h
      | shows hkind hempty => rfl
      | unfit status hstatus hkind hunfit => rfl
      | unknown hkind hother => rfl

/-- After any requests, at any states of the daemon, a leaf's timeline is its
accepted submissions, and the next request adds to its own leaf's or to none. -/
theorem content_recorded (calls : List (Daemon × ContentRequest)) (leaf : SessionId) :
    (∃ texts : List String, texts.map asBytes = accepted leaf calls ∧
        (timelineOf (contentRun calls) leaf).events = numbered leaf texts ∧
        texts.length ≤ contentTimelineMaxItems ∧
        ((timelineOf (contentRun calls) leaf).events.map ContentEvent.eventId).Nodup) ∧
      ∀ (d : Daemon) (request : ContentRequest),
        (responseStatus (d.contentResponse request (contentRun calls)).1 = some 0 ↔
          Acceptable (contentRun calls) d request) ∧
        (¬ Acceptable (contentRun calls) d request → ∀ id,
          (timelineOf (d.contentResponse request (contentRun calls)).2 id).events =
            (timelineOf (contentRun calls) id).events) ∧
        (leaf ≠ d.contentLeaf request →
          (d.contentResponse request (contentRun calls)).2.get? leaf =
            (contentRun calls).get? leaf) := by
  refine ⟨?_, fun d request => ?_⟩
  · obtain ⟨texts, htexts, h⟩ := recorded_run leaf calls
    exact ⟨texts, htexts, h.events, h.bounded, h.invariant.distinct⟩
  · obtain ⟨texts, -, h⟩ := recorded_run (d.contentLeaf request) calls
    have hiff := status_eq_zero_iff h
    refine ⟨hiff, fun hrefused id => ?_, fun hne => contentResponse_get?_of_ne hne _⟩
    rw [timelineOf_refused (fun hstatus => hrefused (hiff.mp hstatus)) id]

end Daemon

end Rill
