import Rill.Daemon.Content
import Rill.Vt.Import

/-!
# The host's end of the content channel

The request that a submission sends, and what the answer is read as. Where the
source would panic on an index or a slice, the reading is `none`.
-/

namespace Rill.Host

open Lib Lib.Bytes Kernel Daemon
open Vt (slice)

inductive ContentError
  | io
  | invalidContent
  deriving DecidableEq, Repr

structure ContentItem where
  kind : UInt8
  sequence : UInt64
  eventId : String
  text : String
  deriving DecidableEq, Repr

def responseMax : Nat := 1024 * 1024

def usizeMax : Nat := 18446744073709551615

/-- The bytes that `content_submit` writes. -/
def submitRequest (execution : UInt64) (text : List UInt8) : Except ContentError (List UInt8) :=
  if text.length > 64 * 1024 then .error .invalidContent
  else .ok (contentMagic ++ [2] ++ toBe 8 execution.toNat ++ toBe 4 text.length ++ text)

/-- One turn of the loop: the item at the cursor, and the cursor behind it. -/
def parseItem (bytes : List UInt8) (cursor : Nat) :
    Option (Except ContentError (ContentItem × Nat)) :=
  let headerEnd := cursor + 15
  if headerEnd > usizeMax || headerEnd > bytes.length then some (.error .invalidContent)
  else do
    let kind ← bytes[cursor]?
    let sequence ← slice bytes (cursor + 1) (cursor + 9)
    let idLen ← slice bytes (cursor + 9) (cursor + 11)
    let textLen ← slice bytes (cursor + 11) headerEnd
    let idEnd := headerEnd + ofBe idLen
    let textEnd := idEnd + ofBe textLen
    if idEnd > usizeMax || textEnd > usizeMax || textEnd > bytes.length then
      some (.error .invalidContent)
    else do
      let id ← slice bytes headerEnd idEnd
      match fromUtf8 id with
      | none => some (.error .invalidContent)
      | some eventId => do
        let text ← slice bytes idEnd textEnd
        match fromUtf8 text with
        | none => some (.error .invalidContent)
        | some text =>
          if eventId.isEmpty then some (.error .invalidContent)
          else some (.ok (⟨kind, UInt64.ofNat (ofBe sequence), eventId, text⟩, textEnd))

def parseItems (bytes : List UInt8) :
    Nat → Nat → List ContentItem → Option (Except ContentError (List ContentItem))
  | 0, cursor, items => some (if cursor ≠ bytes.length then .error .invalidContent else .ok items)
  | n + 1, cursor, items => do
    match ← parseItem bytes cursor with
    | .error e => some (.error e)
    | .ok (item, cursor) => parseItems bytes n cursor (items ++ [item])

def parseContentSnapshot (bytes : List UInt8) : Option (Except ContentError (List ContentItem)) :=
  if bytes.length < 9 then some (.error .invalidContent)
  else do
    let start ← slice bytes 0 4
    let status ← bytes[4]?
    if start ≠ contentMagic || status ≠ 0 then some (.error .invalidContent)
    else do
      let countBytes ← slice bytes 5 9
      let count := ofBe countBytes
      if count > 64 then some (.error .invalidContent) else parseItems bytes count 9 []

/-- What `content_submit` makes of what the daemon sends until it closes. -/
def readResponse (sent : List UInt8) : Option (Except ContentError (List ContentItem)) :=
  let response := sent.take (responseMax + 1)
  if response.length > responseMax then some (.error .invalidContent)
  else parseContentSnapshot response

-- ---------------------------------------------------------------------------
-- Requests
-- ---------------------------------------------------------------------------

def submitHeader (execution : UInt64) (n : Nat) : List UInt8 :=
  contentMagic ++ [2] ++ toBe 8 execution.toNat ++ toBe 4 n

theorem length_submitHeader (execution : UInt64) (n : Nat) : (submitHeader execution n).length = 17 := by
  simp [submitHeader, contentMagic]

theorem submitRequest_eq {text : List UInt8} (h : text.length ≤ contentRequestMax) (execution : UInt64) :
    submitRequest execution text = .ok (submitHeader execution text.length ++ text) :=
  if_neg (Nat.not_lt.mpr h)

/-- After a header that promises `n` bytes of text, what is decoded depends on how
many there are. -/
theorem decode_header {n : Nat} (h : n ≤ contentRequestMax) (execution : UInt64) (text : List UInt8) :
    decodeContentRequest (submitHeader execution n ++ text) =
      if text.length < n then .ok none
      else if text.length ≠ n then .error ()
      else .ok (some ⟨2, execution, text⟩) := by
  have hmax : contentRequestMax = 65536 := rfl
  have hlen : (submitHeader execution n ++ text).length = 17 + text.length := by
    rw [List.length_append, length_submitHeader]
  have hmagic : (submitHeader execution n ++ text).take 4 = contentMagic := rfl
  have hkind : (submitHeader execution n ++ text).getD 4 0 = 2 := rfl
  have hexecution : part (submitHeader execution n ++ text) 5 13 = toBe 8 execution.toNat := by
    have h := part_append (contentMagic ++ [2]) (toBe 8 execution.toNat) (toBe 4 n ++ text)
      (show _ = 5 from rfl) (show _ = 13 by rw [length_toBe])
    rw [← h]
    simp only [submitHeader, List.append_assoc]
  have hn : part (submitHeader execution n ++ text) 13 17 = toBe 4 n := by
    have h := part_append (contentMagic ++ [2] ++ toBe 8 execution.toNat) (toBe 4 n) text
      (show _ = 13 by simp [contentMagic]) (show _ = 17 by rw [length_toBe])
    rw [← h]
    simp only [submitHeader, List.append_assoc]
  have hpayload : text.length = n →
      part (submitHeader execution n ++ text) 17 (17 + n) = text := by
    intro hlen
    have h := part_append (submitHeader execution n) text [] (length_submitHeader _ _)
      (show _ = 17 + n by rw [hlen])
    rwa [List.append_nil] at h
  have hword := execution.toNat_lt
  unfold decodeContentRequest
  rw [if_neg (by omega), if_neg (not_not_intro hmagic), hexecution, hn, hkind,
    ofBe_toBe_of_lt (by omega), ofBe_toBe_of_lt (by omega), UInt64.ofNat_toNat, hlen]
  dsimp only
  rw [if_neg (by omega)]
  by_cases hshort : text.length < n
  · rw [if_pos hshort, if_pos (by omega)]
  · rw [if_neg hshort, if_neg (by omega)]
    by_cases hne : text.length ≠ n
    · rw [if_pos hne, if_pos (by omega)]
    · have heq : text.length = n := not_not.mp hne
      rw [if_neg hne, if_neg (by omega), hpayload heq]

theorem decode_take {text : List UInt8} (h : text.length ≤ contentRequestMax) (execution : UInt64)
    {k : Nat} (hk : k < 17 + text.length) :
    decodeContentRequest ((submitHeader execution text.length ++ text).take k) = .ok none := by
  have hheader := length_submitHeader execution text.length
  by_cases hshort : k < 17
  · unfold decodeContentRequest
    rw [if_pos]
    rw [List.length_take, List.length_append]
    omega
  · rw [List.take_append, List.take_of_length_le (by omega), hheader, decode_header h, if_pos]
    rw [List.length_take]
    omega

theorem decode_request {text : List UInt8} (h : text.length ≤ contentRequestMax) (execution : UInt64) :
    decodeContentRequest (submitHeader execution text.length ++ text) =
      .ok (some ⟨2, execution, text⟩) := by
  rw [decode_header h, if_neg (Nat.lt_irrefl _), if_neg fun hne => hne rfl]

theorem decode_longer {text more : List UInt8} (h : text.length ≤ contentRequestMax)
    (execution : UInt64) (hmore : more ≠ []) :
    decodeContentRequest (submitHeader execution text.length ++ text ++ more) = .error () := by
  have hpos := List.length_pos_of_ne_nil hmore
  rw [List.append_assoc, decode_header h, List.length_append, if_neg (by omega), if_pos (by omega)]

theorem length_payload {bytes : List UInt8} {request : ContentRequest}
    (h : decodeContentRequest bytes = .ok (some request)) :
    request.payload.length ≤ contentRequestMax := by
  unfold decodeContentRequest at h
  split at h
  case isTrue => cases h
  case isFalse =>
    split at h
    case isTrue => cases h
    case isFalse =>
      dsimp only at h
      split at h
      case isTrue => cases h
      case isFalse hmax =>
        split at h
        case isTrue => cases h
        case isFalse =>
          split at h
          case isTrue => cases h
          case isFalse =>
            obtain rfl := Option.some.inj (Except.ok.inj h)
            have hlen : (part bytes 17 (17 + ofBe (part bytes 13 17))).length ≤
                17 + ofBe (part bytes 13 17) - 17 := List.length_take_le _ _
            rw [Nat.add_sub_cancel_left] at hlen
            exact Nat.le_trans hlen (Nat.not_lt.mp hmax)

-- ---------------------------------------------------------------------------
-- Reading an item
-- ---------------------------------------------------------------------------

def listed (e : ContentEvent) : ContentItem where
  kind := kindCode e.kind
  sequence := e.sequence
  eventId := e.eventId
  text := e.materializedText.getD ""

/-- The event has a name, and its lengths fit their fields and the daemon's limits. -/
structure Sized (e : ContentEvent) : Prop where
  named : e.eventId ≠ ""
  idLen : (idBytes e).length ≤ 65535
  textLen : (textBytes e).length ≤ contentRequestMax

theorem length_encodeItem (e : ContentEvent) : (encodeItem e).length = itemLen e := by
  simp only [encodeItem, itemLen, List.length_append, List.length_singleton, length_toBe]

theorem parseItem_encodeItem {e : ContentEvent} (he : Sized e) (before rest : List UInt8)
    (hmax : before.length + itemLen e ≤ usizeMax) :
    parseItem (before ++ (encodeItem e ++ rest)) before.length =
      some (.ok (listed e, before.length + itemLen e)) := by
  have hlen : (before ++ (encodeItem e ++ rest)).length =
      before.length + (itemLen e + rest.length) := by
    rw [List.length_append, List.length_append, length_encodeItem]
  have hitem : itemLen e = 15 + (idBytes e).length + (textBytes e).length := rfl
  have hrequest : contentRequestMax = 65536 := rfl
  have hid := he.idLen
  have htext := he.textLen
  have hword := e.sequence.toNat_lt
  -- Every field of the item, by what is before it and what is behind it.
  have hfield : ∀ first mid last : List UInt8, ∀ lo hi, encodeItem e = first ++ (mid ++ last) →
      before.length + first.length = lo → lo + mid.length = hi →
      slice (before ++ (encodeItem e ++ rest)) lo hi = some mid := by
    intro first mid last lo hi hsplit hlo hhi
    have hlens := congrArg List.length hsplit
    rw [length_encodeItem, List.length_append, List.length_append] at hlens
    rw [Vt.slice_of_le (by omega) (by omega)]
    refine congrArg some ?_
    have hpart := part_append (before ++ first) mid (last ++ rest)
      (by rw [List.length_append, hlo]) hhi
    rw [part] at hpart
    rw [hsplit]
    simp only [List.append_assoc] at hpart ⊢
    exact hpart
  have hkind : (before ++ (encodeItem e ++ rest))[before.length]? = some (kindCode e.kind) := by
    rw [List.getElem?_append_right (Nat.le_refl _), Nat.sub_self]
    rfl
  have hsequence := hfield [kindCode e.kind] (toBe 8 e.sequence.toNat)
    (toBe 2 (idBytes e).length ++ (toBe 4 (textBytes e).length ++ (idBytes e ++ textBytes e)))
    (before.length + 1) (before.length + 9) (by simp only [encodeItem, List.append_assoc]) rfl
    (by rw [length_toBe])
  have hidLen := hfield ([kindCode e.kind] ++ toBe 8 e.sequence.toNat) (toBe 2 (idBytes e).length)
    (toBe 4 (textBytes e).length ++ (idBytes e ++ textBytes e)) (before.length + 9)
    (before.length + 11) (by simp only [encodeItem, List.append_assoc])
    (by rw [List.length_append, length_toBe]; rfl) (by rw [length_toBe])
  have htextLen := hfield
    ([kindCode e.kind] ++ toBe 8 e.sequence.toNat ++ toBe 2 (idBytes e).length)
    (toBe 4 (textBytes e).length) (idBytes e ++ textBytes e) (before.length + 11)
    (before.length + 15) (by simp only [encodeItem, List.append_assoc])
    (by simp) (by rw [length_toBe])
  have hidBytes := hfield
    ([kindCode e.kind] ++ toBe 8 e.sequence.toNat ++ toBe 2 (idBytes e).length ++
      toBe 4 (textBytes e).length) (idBytes e) (textBytes e) (before.length + 15)
    (before.length + 15 + (idBytes e).length) (by simp only [encodeItem, List.append_assoc])
    (by simp) rfl
  have htextBytes := hfield
    ([kindCode e.kind] ++ toBe 8 e.sequence.toNat ++ toBe 2 (idBytes e).length ++
      toBe 4 (textBytes e).length ++ idBytes e) (textBytes e) []
    (before.length + 15 + (idBytes e).length)
    (before.length + 15 + (idBytes e).length + (textBytes e).length)
    (by simp only [encodeItem, List.append_assoc, List.append_nil])
    (by simp only [List.length_append, List.length_singleton, length_toBe]; omega) rfl
  have hnamed : e.eventId.isEmpty = false := by
    rw [String.isEmpty_eq_false_iff]
    exact he.named
  unfold parseItem
  dsimp only
  rw [if_neg (by simp only [Bool.or_eq_true, decide_eq_true_eq]; omega), hkind, hsequence, hidLen,
    htextLen]
  simp only [Option.bind_eq_bind, Option.bind_some]
  rw [ofBe_toBe_of_lt (by omega), ofBe_toBe_of_lt (by omega), ofBe_toBe_of_lt (by omega),
    if_neg (by simp only [Bool.or_eq_true, decide_eq_true_eq]; omega), hidBytes]
  have hidText : fromUtf8 (idBytes e) = some e.eventId := fromUtf8_asBytes _
  have htextText : fromUtf8 (textBytes e) = some (e.materializedText.getD "") := fromUtf8_asBytes _
  simp only [Option.bind_some, hidText, htextBytes, htextText, hnamed, Bool.false_eq_true, if_false]
  have hend : before.length + 15 + (idBytes e).length + (textBytes e).length =
      before.length + itemLen e := by omega
  rw [UInt64.ofNat_toNat, hend]
  rfl

-- ---------------------------------------------------------------------------
-- No reading out of range
-- ---------------------------------------------------------------------------

theorem slice_isSome (bytes : List UInt8) (lo hi : Nat) (hlo : lo ≤ hi) (hhi : hi ≤ bytes.length) :
    ∃ mid, slice bytes lo hi = some mid := ⟨_, Vt.slice_of_le hlo hhi⟩

theorem parseItem_ne_none (bytes : List UInt8) (cursor : Nat) : parseItem bytes cursor ≠ none := by
  unfold parseItem
  dsimp only
  split
  case isTrue => exact Option.some_ne_none _
  case isFalse hheader =>
    simp only [Bool.or_eq_true, decide_eq_true_eq, not_or, Nat.not_lt, gt_iff_lt] at hheader
    obtain ⟨kind, hkind⟩ : ∃ kind, bytes[cursor]? = some kind :=
      ⟨_, List.getElem?_eq_getElem (by omega)⟩
    obtain ⟨sequence, hsequence⟩ := slice_isSome bytes (cursor + 1) (cursor + 9)
      (by omega) (by omega)
    obtain ⟨idLen, hidLen⟩ := slice_isSome bytes (cursor + 9) (cursor + 11)
      (by omega) (by omega)
    obtain ⟨textLen, htextLen⟩ := slice_isSome bytes (cursor + 11) (cursor + 15)
      (by omega) (by omega)
    rw [hkind, hsequence, hidLen, htextLen]
    simp only [Option.bind_eq_bind, Option.bind_some]
    split
    case isTrue => exact Option.some_ne_none _
    case isFalse hend =>
      simp only [Bool.or_eq_true, decide_eq_true_eq, not_or, Nat.not_lt, gt_iff_lt] at hend
      obtain ⟨id, hid⟩ := slice_isSome bytes (cursor + 15) (cursor + 15 + ofBe idLen) (by omega) (by omega)
      obtain ⟨text, htext⟩ := slice_isSome bytes (cursor + 15 + ofBe idLen)
        (cursor + 15 + ofBe idLen + ofBe textLen) (by omega) hend.2
      rw [hid, Option.bind_some]
      cases fromUtf8 id with
      | none => exact Option.some_ne_none _
      | some eventId =>
        rw [htext]
        dsimp only [Option.bind_some]
        cases fromUtf8 text with
        | none => exact Option.some_ne_none _
        | some text =>
          dsimp only
          split <;> exact Option.some_ne_none _

theorem parseItems_ne_none (bytes : List UInt8) (n cursor : Nat) (items : List ContentItem) :
    parseItems bytes n cursor items ≠ none := by
  induction n generalizing cursor items with
  | zero => exact Option.some_ne_none _
  | succ n ih =>
    obtain ⟨outcome, houtcome⟩ := Option.ne_none_iff_exists'.mp (parseItem_ne_none bytes cursor)
    rw [parseItems, houtcome]
    cases outcome with
    | error e => exact Option.some_ne_none _
    | ok found => exact ih found.2 _

theorem parseContentSnapshot_ne_none (bytes : List UInt8) : parseContentSnapshot bytes ≠ none := by
  unfold parseContentSnapshot
  split
  case isTrue => exact Option.some_ne_none _
  case isFalse hlen =>
    obtain ⟨start, hstart⟩ := slice_isSome bytes 0 4 (by omega) (by omega)
    obtain ⟨count, hcount⟩ := slice_isSome bytes 5 9 (by omega) (by omega)
    obtain ⟨status, hstatus⟩ : ∃ status, bytes[4]? = some status :=
      ⟨_, List.getElem?_eq_getElem (by omega)⟩
    rw [hstart, hstatus]
    simp only [Option.bind_eq_bind, Option.bind_some]
    split
    case isTrue => exact Option.some_ne_none _
    case isFalse =>
      rw [hcount, Option.bind_some]
      split
      case isTrue => exact Option.some_ne_none _
      case isFalse => exact parseItems_ne_none _ _ _ _

-- ---------------------------------------------------------------------------
-- What a snapshot lists
-- ---------------------------------------------------------------------------

structure Goes (used : Nat) (e : ContentEvent) : Prop where
  idLen : (idBytes e).length ≤ 65535
  textLen : (textBytes e).length ≤ contentRequestMax
  room : used + itemLen e ≤ contentResponseMax

theorem goes_iff {used : Nat} {e : ContentEvent} :
    Goes used e ↔ ¬ ((decide ((idBytes e).length > 65535) ||
      decide ((textBytes e).length > contentRequestMax) ||
      decide (used + itemLen e > contentResponseMax)) = true) := by
  simp only [Bool.or_eq_true, decide_eq_true_eq, not_or, Nat.not_lt, gt_iff_lt]
  exact ⟨fun h => ⟨⟨h.idLen, h.textLen⟩, h.room⟩, fun h => ⟨h.1.1, h.1.2, h.2⟩⟩

instance (used : Nat) (e : ContentEvent) : Decidable (Goes used e) :=
  decidable_of_iff _ goes_iff.symm

/-- The first events, as long as they go, one after the other. -/
def fitting : Nat → List ContentEvent → List ContentEvent
  | _, [] => []
  | used, e :: events => if Goes used e then e :: fitting (used + itemLen e) events else []

def itemsLen (events : List ContentEvent) : Nat := (events.map itemLen).sum

theorem encodeItems_eq (events : List ContentEvent) (items : List UInt8) (count : Nat) :
    encodeItems items count events =
      (items ++ (fitting (9 + items.length) events).flatMap encodeItem,
        count + (fitting (9 + items.length) events).length) := by
  induction events generalizing items count with
  | nil => simp [encodeItems, fitting]
  | cons e events ih =>
    rw [encodeItems, fitting]
    by_cases hgoes : Goes (9 + items.length) e
    · rw [if_neg (goes_iff.mp hgoes), if_pos hgoes, ih, List.length_append, length_encodeItem,
        ← Nat.add_assoc, List.flatMap_cons, List.append_assoc, List.length_cons]
      exact Prod.ext rfl (by dsimp only; omega)
    · rw [if_pos (not_not.mp fun hc => hgoes (goes_iff.mpr hc)), if_neg hgoes, List.flatMap_nil,
        List.append_nil]
      rfl

/-- What is listed is a first part of the events that leaves no room for the next. -/
theorem fitting_eq_take (used : Nat) (events : List ContentEvent) :
    ∃ n ≤ events.length, fitting used events = events.take n ∧
      (used ≤ contentResponseMax → used + itemsLen (events.take n) ≤ contentResponseMax) ∧
      ∀ e, events[n]? = some e → ¬ Goes (used + itemsLen (events.take n)) e := by
  induction events generalizing used with
  | nil => exact ⟨0, Nat.le_refl 0, rfl, fun h => h, fun f hf => by cases hf⟩
  | cons e events ih =>
    rw [fitting]
    by_cases hgoes : Goes used e
    · obtain ⟨n, hn, heq, hroom, hnext⟩ := ih (used + itemLen e)
      have hlen : used + itemsLen ((e :: events).take (n + 1)) =
          used + itemLen e + itemsLen (events.take n) := by
        simp only [itemsLen, List.take_succ_cons, List.map_cons, List.sum_cons]
        omega
      refine ⟨n + 1, Nat.succ_le_succ hn, ?_, fun _ => ?_, fun f hf => ?_⟩
      · rw [if_pos hgoes, heq, List.take_succ_cons]
      · rw [hlen]
        exact hroom hgoes.room
      · rw [hlen]
        exact hnext f hf
    · refine ⟨0, Nat.zero_le _, if_neg hgoes, fun h => h, fun f hf => ?_⟩
      obtain rfl : e = f := Option.some.inj hf
      exact hgoes

theorem goes_of_mem_fitting {used : Nat} {events : List ContentEvent} {e : ContentEvent}
    (h : e ∈ fitting used events) : ∃ k, Goes k e := by
  induction events generalizing used with
  | nil => cases h
  | cons f events ih =>
    rw [fitting] at h
    split at h
    case isTrue hgoes =>
      rcases List.mem_cons.mp h with rfl | h
      · exact ⟨used, hgoes⟩
      · exact ih h
    case isFalse => cases h

/-- All is listed just when all of it goes. -/
theorem fitting_eq_self_iff {used : Nat} (hused : used ≤ contentResponseMax)
    (events : List ContentEvent) :
    fitting used events = events ↔
      (∀ e ∈ events, (idBytes e).length ≤ 65535 ∧ (textBytes e).length ≤ contentRequestMax) ∧
        used + itemsLen events ≤ contentResponseMax := by
  obtain ⟨n, hn, heq, hroom, hnext⟩ := fitting_eq_take used events
  constructor
  · intro hall
    have htake : events.take n = events := heq.symm.trans hall
    refine ⟨fun e he => ?_, by simpa only [htake] using hroom hused⟩
    obtain ⟨k, hgoes⟩ := goes_of_mem_fitting (hall.symm ▸ he)
    exact ⟨hgoes.idLen, hgoes.textLen⟩
  · rintro ⟨hsized, hlen⟩
    rw [heq]
    refine List.take_of_length_le (Nat.not_lt.mp fun hlt => ?_)
    have hget : events[n]? = some events[n] := List.getElem?_eq_getElem hlt
    obtain ⟨hid, htext⟩ := hsized events[n] (List.getElem_mem hlt)
    refine hnext _ hget ⟨hid, htext, ?_⟩
    have hsplit : itemsLen events =
        itemsLen (events.take n) + itemLen events[n] + itemsLen (events.drop (n + 1)) := by
      conv_lhs => rw [← List.take_append_drop n events, List.drop_eq_getElem_cons hlt]
      simp only [itemsLen, List.map_append, List.map_cons, List.sum_append, List.sum_cons]
      omega
    omega

-- ---------------------------------------------------------------------------
-- Reading a snapshot
-- ---------------------------------------------------------------------------

theorem parseItems_encode {events : List ContentEvent} (hsized : ∀ e ∈ events, Sized e)
    (before : List UInt8) (items : List ContentItem)
    (hmax : before.length + itemsLen events ≤ usizeMax) :
    parseItems (before ++ events.flatMap encodeItem) events.length before.length items =
      some (.ok (items ++ events.map listed)) := by
  induction events generalizing before items with
  | nil => simp [parseItems]
  | cons e events ih =>
    have hlen : itemsLen (e :: events) = itemLen e + itemsLen events := by
      rw [itemsLen, List.map_cons, List.sum_cons]
      rfl
    have hitem := parseItem_encodeItem (hsized e List.mem_cons_self) before
      (events.flatMap encodeItem) (by omega)
    have hbefore : (before ++ encodeItem e).length = before.length + itemLen e := by
      rw [List.length_append, length_encodeItem]
    have hrest := ih (fun f hf => hsized f (List.mem_cons_of_mem _ hf)) (before ++ encodeItem e)
      (items ++ [listed e]) (by omega)
    rw [hbefore, List.append_assoc, List.append_assoc, List.singleton_append] at hrest
    rw [List.flatMap_cons, List.length_cons, parseItems, hitem]
    exact hrest

/-- The host takes all of a snapshot: the two ends agree on how long one can be. -/
theorem readResponse_encode (t : ContentTimeline) :
    readResponse (encodeContentSnapshot t) = parseContentSnapshot (encodeContentSnapshot t) := by
  have hshort : (encodeContentSnapshot t).length ≤ responseMax := by
    obtain ⟨n, -, htake, hroom, -⟩ := fitting_eq_take 9 t.events
    have hlen : ((fitting 9 t.events).flatMap encodeItem).length = itemsLen (t.events.take n) := by
      rw [htake, List.length_flatMap, itemsLen]
      simp only [length_encodeItem]
    have hitems : (encodeContentSnapshot t).length =
        9 + ((fitting 9 t.events).flatMap encodeItem).length := by
      rw [encodeContentSnapshot, encodeItems_eq, List.length_append, List.length_append, length_toBe]
      rfl
    rw [hitems, hlen]
    exact hroom (by decide)
  have htake : (encodeContentSnapshot t).take (responseMax + 1) = encodeContentSnapshot t :=
    List.take_of_length_le (Nat.le_succ_of_le hshort)
  rw [readResponse, htake, if_neg (Nat.not_lt.mpr hshort)]

theorem parse_encode {t : ContentTimeline} (hnamed : ∀ e ∈ t.events, e.eventId ≠ "")
    (hcount : t.events.length ≤ 64) :
    parseContentSnapshot (encodeContentSnapshot t) =
      some (.ok ((fitting 9 t.events).map listed)) := by
  obtain ⟨n, hn, htake, hroom, -⟩ := fitting_eq_take 9 t.events
  have hmax : contentResponseMax = 1048576 := rfl
  have husize : usizeMax = 18446744073709551615 := rfl
  have hlen : 9 + itemsLen (fitting 9 t.events) ≤ contentResponseMax := by
    rw [htake]
    exact hroom (by decide)
  have hle : (fitting 9 t.events).length ≤ 64 := by
    rw [htake, List.length_take]
    omega
  have hsized : ∀ e ∈ fitting 9 t.events, Sized e := by
    intro e he
    obtain ⟨k, hgoes⟩ := goes_of_mem_fitting he
    rw [htake] at he
    exact ⟨hnamed e (List.mem_of_mem_take he), hgoes.idLen, hgoes.textLen⟩
  generalize hevents : fitting 9 t.events = events at hlen hle hsized
  have hbytes : encodeContentSnapshot t =
      contentMagic ++ [0] ++ toBe 4 events.length ++ events.flatMap encodeItem := by
    have hitems := encodeItems_eq t.events [] 0
    rw [List.length_nil, Nat.add_zero, List.nil_append, Nat.zero_add, hevents] at hitems
    rw [encodeContentSnapshot, hitems]
  have hheader : (contentMagic ++ [0] ++ toBe 4 events.length).length = 9 := by simp [contentMagic]
  have hlong : 9 ≤ (encodeContentSnapshot t).length := by
    rw [hbytes, List.length_append, hheader]
    omega
  have hstart : slice (encodeContentSnapshot t) 0 4 = some contentMagic := by
    rw [Vt.slice_of_le (by omega) (by omega), hbytes]
    rfl
  have hstatus : (encodeContentSnapshot t)[4]? = some 0 := by
    rw [hbytes]
    rfl
  have hcountBytes : slice (encodeContentSnapshot t) 5 9 = some (toBe 4 events.length) := by
    rw [Vt.slice_of_le (by omega) (by omega), hbytes]
    have hpart := part_append (contentMagic ++ [0]) (toBe 4 events.length) (events.flatMap encodeItem)
      (show _ = 5 from rfl) (show _ = 9 by rw [length_toBe])
    rw [part, ← List.append_assoc] at hpart
    rw [hpart]
  have hitems := parseItems_encode hsized (contentMagic ++ [0] ++ toBe 4 events.length) []
    (by omega)
  rw [hheader, List.nil_append, ← hbytes] at hitems
  unfold parseContentSnapshot
  rw [if_neg (by omega), hstart, hstatus]
  simp only [Option.bind_eq_bind, Option.bind_some, ne_eq, not_true_eq_false, decide_false,
    Bool.or_self, Bool.false_eq_true, if_false, hcountBytes]
  rw [ofBe_toBe_of_lt (by omega), if_neg (by omega), hitems]

-- ---------------------------------------------------------------------------
-- The timelines of the daemon
-- ---------------------------------------------------------------------------

/-- The requests that the daemon decodes, each with the daemon as it stands then. -/
def decodedCalls (calls : List (Daemon × List UInt8)) : List (Daemon × ContentRequest) :=
  calls.filterMap fun call =>
    match decodeContentRequest call.2 with
    | .ok (some request) => some (call.1, request)
    | _ => none

theorem length_of_mem_decodedCalls {calls : List (Daemon × List UInt8)}
    {call : Daemon × ContentRequest} (h : call ∈ decodedCalls calls) :
    call.2.payload.length ≤ contentRequestMax := by
  obtain ⟨⟨d, bytes⟩, -, hcall⟩ := List.mem_filterMap.mp h
  dsimp only at hcall
  split at hcall
  case h_1 request hrequest =>
    obtain rfl := Option.some.inj hcall
    exact length_payload hrequest
  case h_2 => cases hcall

theorem length_of_mem_accepted {leaf : SessionId} {calls : List (Daemon × ContentRequest)} {n : Nat}
    (h : ∀ call ∈ calls, call.2.payload.length ≤ n) {payload : List UInt8}
    (hpayload : payload ∈ accepted leaf calls) : payload.length ≤ n := by
  obtain ⟨timelines, call, hcall, hmem⟩ := mem_along hpayload
  rw [submitted] at hmem
  split at hmem
  case isTrue =>
    obtain rfl := List.mem_singleton.mp hmem
    exact h call hcall
  case isFalse => cases hmem

theorem named_of_mem_numbered {id : SessionId} {texts : List String} {e : ContentEvent}
    (he : e ∈ numbered id texts) : e.kind = .terminalInput ∧ e.eventId ≠ "" ∧
      (idBytes e).length ≤ 65535 ∧ ∃ text ∈ texts, textBytes e = asBytes text := by
  obtain ⟨i, hi, rfl⟩ := List.mem_mapIdx.mp he
  exact ⟨rfl, inputId_ne_empty _ _, length_inputId _ _, texts[i], List.getElem_mem hi, rfl⟩

theorem itemsLen_append (events more : List ContentEvent) :
    itemsLen (events ++ more) = itemsLen events + itemsLen more := by
  rw [itemsLen, List.map_append, List.sum_append]
  rfl

/-- The two ends agree: on every timeline that requests off the socket make, on every
submission and every part of one, and the host reads any bytes without going out of
their range. -/
theorem content_wire_agrees :
    (∀ (calls : List (Daemon × List UInt8)) (leaf : SessionId),
      ∃ n ≤ (timelineOf (contentRun (decodedCalls calls)) leaf).events.length,
        parseContentSnapshot
            (encodeContentSnapshot (timelineOf (contentRun (decodedCalls calls)) leaf)) =
          some (.ok
            (((timelineOf (contentRun (decodedCalls calls)) leaf).events.take n).map listed)) ∧
        9 + itemsLen ((timelineOf (contentRun (decodedCalls calls)) leaf).events.take n) ≤
          contentResponseMax ∧
        (n < (timelineOf (contentRun (decodedCalls calls)) leaf).events.length →
          contentResponseMax <
            9 + itemsLen ((timelineOf (contentRun (decodedCalls calls)) leaf).events.take (n + 1))) ∧
        ∀ e ∈ (timelineOf (contentRun (decodedCalls calls)) leaf).events, kindCode e.kind = 1) ∧
      (∀ (execution : UInt64) (text : List UInt8), text.length ≤ contentRequestMax →
        ∃ request, submitRequest execution text = .ok request ∧
          decodeContentRequest request = .ok (some ⟨2, execution, text⟩) ∧
          (∀ k < request.length, decodeContentRequest (request.take k) = .ok none) ∧
          ∀ more ≠ [], decodeContentRequest (request ++ more) = .error ()) ∧
      ∀ bytes, parseContentSnapshot bytes ≠ none := by
  refine ⟨fun calls leaf => ?_, fun execution text h => ?_, parseContentSnapshot_ne_none⟩
  · obtain ⟨texts, htexts, h⟩ := recorded_run leaf (decodedCalls calls)
    generalize timelineOf (contentRun (decodedCalls calls)) leaf = t at h ⊢
    have hevents : ∀ e ∈ t.events, e.kind = .terminalInput ∧ e.eventId ≠ "" ∧
        (idBytes e).length ≤ 65535 ∧ (textBytes e).length ≤ contentRequestMax := by
      intro e he
      rw [h.events] at he
      obtain ⟨hkind, hname, hid, text, htext, hbytes⟩ := named_of_mem_numbered he
      refine ⟨hkind, hname, hid, ?_⟩
      have hmem : asBytes text ∈ accepted leaf (decodedCalls calls) := by
        rw [← htexts]
        exact List.mem_map_of_mem htext
      rw [hbytes]
      exact length_of_mem_accepted (fun call hcall => length_of_mem_decodedCalls hcall) hmem
    obtain ⟨n, hn, htake, hroom, hnext⟩ := fitting_eq_take 9 t.events
    refine ⟨n, hn, ?_, hroom (by decide), fun hlt => ?_, fun e he => ?_⟩
    · rw [← htake]
      refine parse_encode (fun e he => (hevents e he).2.1) ?_
      rw [h.length_events]
      exact h.bounded
    · have hget : t.events[n]? = some t.events[n] := List.getElem?_eq_getElem hlt
      obtain ⟨-, -, hid, htext⟩ := hevents _ (List.getElem_mem hlt)
      rw [List.take_add_one, hget, itemsLen_append]
      refine Nat.not_le.mp fun hle => hnext _ hget ⟨hid, htext, ?_⟩
      have hone : itemsLen (some t.events[n]).toList = itemLen t.events[n] := by
        rw [itemsLen]
        exact Nat.add_zero _
      omega
    · rw [(hevents e he).1]
      rfl
  · refine ⟨_, submitRequest_eq h execution, decode_request h execution, fun k hk => ?_,
      fun more hmore => decode_longer h execution hmore⟩
    refine decode_take h execution ?_
    rwa [List.length_append, length_submitHeader] at hk

-- ---------------------------------------------------------------------------
-- What a submitter is shown
-- ---------------------------------------------------------------------------

/-- The host reads the response, and `item` is the last it lists. -/
def ShowsLast (response : List UInt8) (item : ContentItem) : Prop :=
  ∃ items, readResponse response = some (.ok items) ∧ items.getLast? = some item

/-- A snapshot has room for the timeline and for one more submission of the leaf. -/
def RoomFor (t : ContentTimeline) (leaf : SessionId) (payload : List UInt8) : Prop :=
  (∀ e ∈ t.events, (textBytes e).length ≤ contentRequestMax) ∧ payload.length ≤ contentRequestMax ∧
    9 + itemsLen t.events +
        (15 + (asBytes (inputId leaf (UInt64.ofNat t.events.length + 1))).length + payload.length) ≤
      contentResponseMax

theorem roomFor_iff {leaf : SessionId} {t : ContentTimeline} {texts : List String}
    (h : Recorded leaf t texts) {payload : List UInt8} {text : String}
    (htext : fromUtf8 payload = some text) :
    RoomFor t leaf payload ↔
      fitting 9 (t.events ++ [nextInput leaf t text]) = t.events ++ [nextInput leaf t text] := by
  have hbytes : textBytes (nextInput leaf t text) = payload := asBytes_of_fromUtf8 htext
  have hids : ∀ e ∈ t.events, (idBytes e).length ≤ 65535 := by
    intro e he
    rw [h.events] at he
    exact (named_of_mem_numbered he).2.2.1
  have hone : itemsLen [nextInput leaf t text] =
      15 + (asBytes (inputId leaf (UInt64.ofNat t.events.length + 1))).length + payload.length := by
    rw [← hbytes]
    exact Nat.add_zero _
  rw [fitting_eq_self_iff (by decide), RoomFor, itemsLen_append, hone, List.forall_mem_append,
    List.forall_mem_singleton, hbytes, ← Nat.add_assoc 9, and_assoc]
  constructor
  · rintro ⟨hold, hnew, hlen⟩
    exact ⟨fun e he => ⟨hids e he, hold e he⟩, ⟨length_inputId _ _, hnew⟩, hlen⟩
  · rintro ⟨hold, ⟨-, hnew⟩, hlen⟩
    exact ⟨fun e he => (hold e he).2, hnew, hlen⟩

/-- The last one listed is the new one just when all are listed. -/
theorem shows_push_iff {leaf : SessionId} {t : ContentTimeline} {texts : List String}
    (h : Recorded leaf t texts) (hroom : t.events.length < contentTimelineMaxItems) (text : String) :
    ShowsLast (encodeContentSnapshot (t.push (nextInput leaf t text))) (listed (nextInput leaf t text)) ↔
      fitting 9 (t.events ++ [nextInput leaf t text]) = t.events ++ [nextInput leaf t text] := by
  have hpush := h.push hroom text
  have hnamed : ∀ e ∈ (t.push (nextInput leaf t text)).events, e.eventId ≠ "" := by
    intro e he
    rw [hpush.events] at he
    exact (named_of_mem_numbered he).2.1
  have hcount : (t.push (nextInput leaf t text)).events.length ≤ 64 := by
    rw [hpush.length_events]
    exact hpush.bounded
  have hevents : (t.push (nextInput leaf t text)).events = t.events ++ [nextInput leaf t text] := rfl
  rw [ShowsLast, readResponse_encode, parse_encode hnamed hcount, hevents]
  constructor
  · rintro ⟨items, hitems, hlast⟩
    obtain rfl := Except.ok.inj (Option.some.inj hitems)
    obtain ⟨n, hn, htake, -, -⟩ := fitting_eq_take 9 (t.events ++ [nextInput leaf t text])
    rw [htake] at hlast ⊢
    refine List.take_of_length_le (Nat.not_lt.mp fun hlt => ?_)
    rw [List.length_append, List.length_singleton] at hlt
    -- Short of the last event, what is listed last is an older one, of another name.
    rw [List.take_append_of_le_length (by omega), List.getLast?_map] at hlast
    obtain ⟨e, he, hsame⟩ := Option.map_eq_some_iff.mp hlast
    have hmem : e ∈ t.events := List.mem_of_mem_take (List.mem_of_getLast? he)
    have hname : e.eventId = (nextInput leaf t text).eventId := congrArg ContentItem.eventId hsame
    refine (h.fits hroom text).unknown ((h.invariant.ids _).mpr ?_)
    rw [← hname]
    exact List.mem_map_of_mem hmem
  · intro hall
    refine ⟨_, rfl, ?_⟩
    rw [hall, List.map_append, List.map_singleton, List.getLast?_concat]

/-- The submitter of an accepted text is shown it last just when the snapshot had
room for it: what does not fit is left out from the new end. -/
theorem shows_submission_iff (calls : List (Daemon × ContentRequest)) (d : Daemon)
    (request : ContentRequest) (hkind : request.kind = 2)
    (haccepted : responseStatus (d.contentResponse request (contentRun calls)).1 = some 0) :
    (∃ text, fromUtf8 request.payload = some text ∧
        ShowsLast (d.contentResponse request (contentRun calls)).1
          (listed (nextInput (d.contentLeaf request)
            (timelineOf (contentRun calls) (d.contentLeaf request)) text))) ↔
      RoomFor (timelineOf (contentRun calls) (d.contentLeaf request)) (d.contentLeaf request)
        request.payload := by
  obtain ⟨texts, -, h⟩ := recorded_run (d.contentLeaf request) calls
  obtain ⟨text, htext, -, hroom, hresponse⟩ := contentResponse_accepted hkind haccepted
  rw [roomFor_iff h htext, ← shows_push_iff h hroom text, hresponse]
  constructor
  · rintro ⟨other, hother, hshows⟩
    rw [htext] at hother
    obtain rfl := Option.some.inj hother
    exact hshows
  · exact fun hshows => ⟨text, htext, hshows⟩

/-- The same text submitted over and over, as long as there is room. -/
theorem recorded_replicate {d : Daemon} {request : ContentRequest} {text : String}
    (hknown : (d.session (d.contentLeaf request)).isSome) (hkind : request.kind = 2)
    (htext : fromUtf8 request.payload = some text) {n : Nat} (hn : n ≤ contentTimelineMaxItems) :
    Recorded (d.contentLeaf request)
      (timelineOf (contentRun (List.replicate n (d, request))) (d.contentLeaf request))
      (List.replicate n text) := by
  induction n with
  | zero => exact .new _
  | succ n ih =>
    have hrun : contentRun (List.replicate (n + 1) (d, request)) =
        contentNext (contentRun (List.replicate n (d, request))) (d, request) := by
      rw [contentRun, List.replicate_succ', List.foldl_append]
      rfl
    have hbefore := ih (Nat.le_of_succ_le hn)
    obtain ⟨more, hmore, hafter⟩ := hbefore.next (d, request)
    have haccepted := (status_eq_zero_iff hbefore).mpr
      ⟨hknown, .inl ⟨hkind, by rw [hbefore.length_events, List.length_replicate]; exact hn,
        Option.isSome_iff_exists.mpr ⟨text, htext⟩⟩⟩
    rw [submitted, if_pos ⟨rfl, hkind, haccepted⟩, ← asBytes_of_fromUtf8 htext] at hmore
    have hone : more = [text] := by
      obtain ⟨last, hlast, hbytes⟩ := List.map_eq_singleton_iff.mp hmore
      rw [hlast, asBytes_inj.mp hbytes]
    rw [hrun, List.replicate_succ', ← hone]
    exact hafter

theorem exists_text (n : Nat) : ∃ text : String, (asBytes text).length = n := by
  refine ⟨String.ofList (List.replicate n 'a'), ?_⟩
  rw [asBytes_ofList]
  induction n with
  | zero => rfl
  | succ n ih =>
    rw [List.replicate_succ, List.flatMap_cons, List.length_append, ih, Nat.add_comm]
    rfl

theorem length_mul_le_itemsLen {events : List ContentEvent} {n : Nat}
    (h : ∀ e ∈ events, n ≤ itemLen e) : events.length * n ≤ itemsLen events := by
  induction events with
  | nil => exact Nat.le_of_eq (Nat.zero_mul n)
  | cons e events ih =>
    have he := h e List.mem_cons_self
    have hrest := ih fun f hf => h f (List.mem_cons_of_mem _ hf)
    have hlen : itemsLen (e :: events) = itemLen e + itemsLen events := List.sum_cons
    rw [List.length_cons, Nat.succ_mul, hlen]
    omega

theorem exists_default_leaf : ∃ d : Daemon, (d.session d.defaultId).isSome := by
  obtain ⟨d, hd⟩ : ∃ d, Daemon.bind (.spawn ⟨1, 1, 0, 0⟩ []) ⟨1, 1, 0, 0⟩ true = .ok d := ⟨_, rfl⟩
  refine ⟨d, ?_⟩
  obtain rfl := Except.ok.inj hd
  rfl

/-- A short text is shown. -/
theorem shows_submission_first : ∃ (d : Daemon) (text : String),
    ShowsLast (d.contentResponse ⟨2, 0, [0x6c, 0x73]⟩ (contentRun [])).1
      (listed (nextInput d.defaultId .new text)) := by
  obtain ⟨d, hd⟩ := exists_default_leaf
  have htext : fromUtf8 [0x6c, 0x73] = some "ls" := fromUtf8_asBytes "ls"
  have haccepted : responseStatus (d.contentResponse ⟨2, 0, [0x6c, 0x73]⟩ (contentRun [])).1 = some 0 :=
    (status_eq_zero_iff (Recorded.new _)).mpr
      ⟨hd, .inl ⟨rfl, Nat.zero_lt_succ _, Option.isSome_iff_exists.mpr ⟨_, htext⟩⟩⟩
  have hroom : RoomFor .new d.defaultId [0x6c, 0x73] := by
    have hid := length_inputId d.defaultId (UInt64.ofNat 0 + 1)
    refine ⟨fun e he => absurd he List.not_mem_nil, by decide, ?_⟩
    change 9 + 0 + (15 + (asBytes (inputId d.defaultId (UInt64.ofNat 0 + 1))).length + 2) ≤ 1048576
    omega
  obtain ⟨text, -, hshows⟩ :=
    (shows_submission_iff [] d ⟨2, 0, [0x6c, 0x73]⟩ rfl haccepted).mpr hroom
  exact ⟨d, text, hshows⟩

/-- Sixteen texts of 64 KiB are all accepted, and the last is not shown. -/
theorem sixteenth_not_shown :
    ¬ ∀ (calls : List (Daemon × ContentRequest)) (d : Daemon) (request : ContentRequest),
      request.kind = 2 →
      responseStatus (d.contentResponse request (contentRun calls)).1 = some 0 →
      ∃ text, fromUtf8 request.payload = some text ∧
        ShowsLast (d.contentResponse request (contentRun calls)).1
          (listed (nextInput (d.contentLeaf request)
            (timelineOf (contentRun calls) (d.contentLeaf request)) text)) := by
  intro hall
  obtain ⟨d, hd⟩ := exists_default_leaf
  obtain ⟨text, hlen⟩ := exists_text 65536
  obtain ⟨request, hrequest⟩ : ∃ request : ContentRequest, request = ⟨2, 0, asBytes text⟩ := ⟨_, rfl⟩
  have hkind : request.kind = 2 := by rw [hrequest]
  have hpayload : request.payload = asBytes text := by rw [hrequest]
  have hknown : (d.session (d.contentLeaf request)).isSome := by rwa [hrequest]
  have htext : fromUtf8 request.payload = some text := by rw [hpayload, fromUtf8_asBytes]
  have h := recorded_replicate hknown hkind htext (n := 15) (by decide)
  have hbefore : (timelineOf (contentRun (List.replicate 15 (d, request)))
      (d.contentLeaf request)).events.length = 15 := by
    rw [h.length_events, List.length_replicate]
  have haccepted := (status_eq_zero_iff h).mpr
    ⟨hknown, .inl ⟨hkind, by rw [hbefore]; decide, Option.isSome_iff_exists.mpr ⟨text, htext⟩⟩⟩
  obtain ⟨other, hother, hshows⟩ := hall _ d request hkind haccepted
  obtain ⟨text', htext', -, hroom, hresponse⟩ := contentResponse_accepted hkind haccepted
  rw [hother] at htext'
  obtain rfl := Option.some.inj htext'
  rw [hresponse, shows_push_iff h hroom, ← roomFor_iff h hother] at hshows
  have hitems : ∀ e ∈ (timelineOf (contentRun (List.replicate 15 (d, request)))
      (d.contentLeaf request)).events, 65536 ≤ itemLen e := by
    intro e he
    rw [h.events] at he
    obtain ⟨-, -, -, text', htext', hbytes⟩ := named_of_mem_numbered he
    rw [List.eq_of_mem_replicate htext'] at hbytes
    rw [itemLen, hbytes, hlen]
    omega
  have hsum := length_mul_le_itemsLen hitems
  have hmax : contentResponseMax = 1048576 := rfl
  have htotal := hshows.2.2
  rw [hbefore] at hsum
  rw [hpayload, hlen] at htotal
  omega

end Rill.Host
