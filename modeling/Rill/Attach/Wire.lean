import Rill.Attach.Frame
import Rill.Lib.Framing

/-!
# The attach stream

What comes over the socket however it is cut: `decode` against `encode`, frame
by frame, and the decoder as a reader of framed streams.
-/

namespace Rill.Attach

open Lib Lib.Bytes

namespace Decoder

/-- One turn of the decoder's loop: the front of the buffer, and what the turn
leaves of it. The payload is taken off before it is decoded. -/
def front (buf : List UInt8) : Front UInt8 Error Frame :=
  if buf.length < 5 then .wait
  else
    match Tag.fromU8 (buf.headD 0) with
    | .error e => .fail e buf
    | .ok tag =>
      let len := ofLe ((buf.drop 1).take 4)
      if len > maxFrame then .fail (.tooLarge len) buf
      else if buf.length < 5 + len then
        if buf.length > maxFrame + 5 then .fail (.tooLarge buf.length) buf else .wait
      else
        match Frame.decode tag ((buf.drop 5).take len) with
        | .error e => .fail e (buf.drop (5 + len))
        | .ok frame => .frame frame (buf.drop (5 + len))

/-- What `drain` returns, turn by turn. -/
theorem drain_succ (turns : Nat) (buf : List UInt8) :
    drain (turns + 1) buf = match front buf with
      | .wait => .ok ([], buf)
      | .fail e _ => .error e
      | .frame f rest => (drain turns rest).map fun r => (f :: r.1, r.2) := by
  rw [drain, front]
  split
  case isTrue => rfl
  case isFalse =>
    cases Tag.fromU8 (buf.headD 0) with
    | error e => rfl
    | ok tag =>
      simp only [bind, Except.bind]
      split
      case isTrue => rfl
      case isFalse =>
        simp only [pure, Except.pure]
        split
        case isTrue =>
          split
          case isTrue => rfl
          case isFalse => rfl
        case isFalse =>
          cases Frame.decode tag ((buf.drop 5).take (ofLe ((buf.drop 1).take 4))) with
          | error e => rfl
          | ok f =>
            dsimp only
            cases drain turns (buf.drop (5 + ofLe ((buf.drop 1).take 4))) with
            | error e => rfl
            | ok r => rfl

/-- What a front that is not waiting for more has read, and where it failed:
in the header, which stays, or in the payload, which is taken off. -/
theorem front_cases (buf : List UInt8) :
    front buf = .wait ∨
      5 ≤ buf.length ∧
        ((∃ e, Tag.fromU8 (buf.headD 0) = .error e ∧ front buf = .fail e buf) ∨
          ∃ tag len, Tag.fromU8 (buf.headD 0) = .ok tag ∧ ofLe ((buf.drop 1).take 4) = len ∧
            ((len > maxFrame ∧ front buf = .fail (.tooLarge len) buf) ∨
              (len ≤ maxFrame ∧ 5 + len ≤ buf.length ∧
                ((∃ e, Frame.decode tag ((buf.drop 5).take len) = .error e ∧
                    front buf = .fail e (buf.drop (5 + len))) ∨
                  ∃ f, Frame.decode tag ((buf.drop 5).take len) = .ok f ∧
                    front buf = .frame f (buf.drop (5 + len)))))) := by
  unfold front
  split
  case isTrue => exact .inl rfl
  case isFalse hlen =>
    have hfive : 5 ≤ buf.length := Nat.le_of_not_lt hlen
    cases htag : Tag.fromU8 (buf.headD 0) with
    | error e => exact .inr ⟨hfive, .inl ⟨e, rfl, rfl⟩⟩
    | ok tag =>
      dsimp only
      split
      case isTrue hlarge => exact .inr ⟨hfive, .inr ⟨tag, _, rfl, rfl, .inl ⟨hlarge, rfl⟩⟩⟩
      case isFalse hsmall =>
        have hle := Nat.le_of_not_lt hsmall
        split
        case isTrue hshort =>
          rw [if_neg (by omega)]
          exact .inl rfl
        case isFalse hlong =>
          have hall := Nat.le_of_not_lt hlong
          cases hdecode : Frame.decode tag ((buf.drop 5).take (ofLe ((buf.drop 1).take 4))) with
          | error e =>
            exact .inr ⟨hfive, .inr ⟨tag, _, rfl, rfl, .inr ⟨hle, hall, .inl ⟨e, hdecode, rfl⟩⟩⟩⟩
          | ok f =>
            exact .inr ⟨hfive, .inr ⟨tag, _, rfl, rfl, .inr ⟨hle, hall, .inr ⟨f, hdecode, rfl⟩⟩⟩⟩

theorem headD_append {buf : List UInt8} (h : 5 ≤ buf.length) (more : List UInt8) :
    (buf ++ more).headD 0 = buf.headD 0 := by
  cases buf with
  | nil => exact absurd h (by decide)
  | cons b buf => rfl

theorem length_append {buf : List UInt8} (h : 5 ≤ buf.length) (more : List UInt8) :
    ((buf ++ more).drop 1).take 4 = (buf.drop 1).take 4 := by
  rw [List.drop_append_of_le_length (by omega), List.take_append_of_le_length (by simp; omega)]

theorem payload_append {buf : List UInt8} {len : Nat} (h : 5 + len ≤ buf.length) (more : List UInt8) :
    ((buf ++ more).drop 5).take len = (buf.drop 5).take len := by
  rw [List.drop_append_of_le_length (by omega), List.take_append_of_le_length (by simp; omega)]

theorem front_append {buf : List UInt8} (h : front buf ≠ .wait) (more : List UInt8) :
    front (buf ++ more) = match front buf with
      | .wait => .wait
      | .fail e left => .fail e (left ++ more)
      | .frame f rest => .frame f (rest ++ more) := by
  rcases front_cases buf with hwait | ⟨hfive, hcases⟩
  · exact absurd hwait h
  · have hshort : ¬ (buf ++ more).length < 5 := by simp; omega
    rcases hcases with ⟨e, htag, hfront⟩ | ⟨tag, len, htag, hlen, hcases⟩
    · rw [hfront, front, if_neg hshort, headD_append hfive, htag]
    · rw [front, if_neg hshort, headD_append hfive, htag]
      dsimp only
      rw [length_append hfive, hlen]
      rcases hcases with ⟨hlarge, hfront⟩ | ⟨hle, hall, hcases⟩
      · rw [hfront, if_pos hlarge]
      · have hmore : ¬ (buf ++ more).length < 5 + len := by simp; omega
        rw [if_neg (Nat.not_lt.mpr hle), if_neg hmore, payload_append hall,
          List.drop_append_of_le_length hall]
        rcases hcases with ⟨e, hdecode, hfront⟩ | ⟨f, hdecode, hfront⟩
        · rw [hdecode, hfront]
        · rw [hdecode, hfront]

/-- The decoder reads a framed stream. -/
def framing : Framing UInt8 Error Frame where
  front := front
  shrinks {buf f rest} h := by
    rcases front_cases buf with hwait | ⟨hfive, ⟨e, -, hfront⟩ | ⟨tag, len, -, -, ⟨-, hfront⟩ |
      ⟨-, hall, ⟨e, -, hfront⟩ | ⟨f', -, hfront⟩⟩⟩⟩
    · rw [hwait] at h
      cases h
    · rw [hfront] at h
      cases h
    · rw [hfront] at h
      cases h
    · rw [hfront] at h
      cases h
    · rw [hfront] at h
      obtain ⟨-, rfl⟩ := Front.frame.inj h
      rw [List.length_drop]
      omega
  frame_append {buf f rest} h more := by rw [front_append (by rw [h]; simp), h]
  fail_append {buf e left} h more := by rw [front_append (by rw [h]; simp), h]

/-- The decoder after a push, failed or not, with what the push returns. -/
def pushKeeping (d : Decoder) (bytes : List UInt8) : Except Error (List Frame) × Decoder :=
  ((framing.push d.buf bytes).1, ⟨(framing.push d.buf bytes).2⟩)

theorem drain_eq (turns : Nat) (buf : List UInt8) :
    drain turns buf = (framing.drain turns buf).1.map fun frames =>
      (frames, (framing.drain turns buf).2) := by
  induction turns generalizing buf with
  | zero => rfl
  | succ turns ih =>
    have hsame : framing.front buf = front buf := rfl
    rw [drain_succ, Framing.drain, hsame]
    cases front buf with
    | wait => rfl
    | fail e left => rfl
    | frame f rest =>
      dsimp only
      rw [ih]
      cases (framing.drain turns rest).1 with
      | error e => rfl
      | ok frames => rfl

/-- `push` is `pushKeeping`, to a caller that gives the decoder up on an error. -/
theorem push_eq (d : Decoder) (bytes : List UInt8) :
    d.push bytes = (d.pushKeeping bytes).1.map fun frames => (frames, (d.pushKeeping bytes).2) := by
  rw [push, drain_eq, pushKeeping, Framing.push]
  cases (framing.drain ((d.buf ++ bytes).length + 1) (d.buf ++ bytes)).1 with
  | error e => rfl
  | ok frames => rfl

def pushes (d : Decoder) : List (List UInt8) → List (Except Error (List Frame)) × Decoder
  | [] => ([], d)
  | piece :: pieces =>
    ((d.pushKeeping piece).1 :: ((d.pushKeeping piece).2.pushes pieces).1,
      ((d.pushKeeping piece).2.pushes pieces).2)

theorem pushes_eq (d : Decoder) (pieces : List (List UInt8)) :
    d.pushes pieces = ((framing.pushes d.buf pieces).1, ⟨(framing.pushes d.buf pieces).2⟩) := by
  induction pieces generalizing d with
  | nil => rfl
  | cons piece pieces ih => rw [pushes, ih, Framing.pushes, pushKeeping]

end Decoder

-- ---------------------------------------------------------------------------
-- Frame by frame
-- ---------------------------------------------------------------------------

namespace Tag

theorem fromU8_toU8 (tag : Tag) : fromU8 tag.toU8 = .ok tag := by cases tag <;> rfl

end Tag

namespace Frame

/-- `encode` has no other reason to fail. -/
def Fits (f : Frame) : Prop := f.payload.length ≤ maxFrame

instance (f : Frame) : Decidable f.Fits := by
  unfold Fits
  infer_instance

theorem encode_of_fits {f : Frame} (h : f.Fits) : f.encode = .ok f.wire := if_neg (Nat.not_lt.mpr h)

theorem encode_of_not_fits {f : Frame} (h : ¬ f.Fits) : f.encode = .error (.tooLarge f.payload.length) :=
  if_pos (Nat.lt_of_not_le h)

def long (protocol : UInt8) (observe : Bool) : Bool := protocol ≠ protocolVersion || observe

theorem of_not_long {protocol : UInt8} {observe : Bool} (h : long protocol observe = false) :
    protocol = protocolVersion ∧ observe = false := by simpa [long] using h

/-- An ATTACH that names the session id 0 and has more behind it. -/
def inBand : Frame → Bool
  | attach _ sessionId protocol observe => sessionId = some 0 && long protocol observe
  | _ => false

/-- What the other end takes a frame for: there the id 0 stands for none. -/
def received (f : Frame) : Frame :=
  match f with
  | attach generation _ protocol observe =>
    if f.inBand then attach generation none protocol observe else f
  | _ => f

theorem received_of_not_inBand {f : Frame} (h : f.inBand = false) : f.received = f := by
  unfold received
  split
  case h_1 =>
    rw [h]
    rfl
  case h_2 => rfl

theorem received_eq_self_iff {f : Frame} : f.received = f ↔ f.inBand = false := by
  refine ⟨fun h => ?_, received_of_not_inBand⟩
  cases hin : f.inBand with
  | false => rfl
  | true =>
    cases f with
    | attach generation sessionId protocol observe =>
      obtain ⟨rfl, -⟩ : sessionId = some 0 ∧ long protocol observe = true := by simpa [inBand] using hin
      rw [received, hin] at h
      cases h
    | data | credit | resize | exit | refused | checkpoint | delta | resyncRequest => cases hin

theorem readWord_toLe (k n : Nat) (h : n < 256 ^ k) : readWord k (toLe k n) = .ok n := by
  rw [readWord, if_neg (by simp), ofLe_toLe_of_lt h]

theorem word_between (before after : List UInt8) (k n : Nat) (h : n < 256 ^ k) :
    ofLe (((before ++ (toLe k n ++ after)).drop before.length).take k) = n := by
  rw [List.drop_left, List.take_left' (length_toLe k n), ofLe_toLe_of_lt h]

theorem u16_between (before after : List UInt8) (n : UInt16) :
    UInt16.ofNat (ofLe (((before ++ (toLe 2 n.toNat ++ after)).drop before.length).take 2)) = n := by
  rw [word_between _ _ _ _ n.toNat_lt, UInt16.ofNat_toNat]

theorem u64_between (before after : List UInt8) (n : UInt64) :
    UInt64.ofNat (ofLe (((before ++ (toLe 8 n.toNat ++ after)).drop before.length).take 8)) = n := by
  rw [word_between _ _ _ _ n.toNat_lt, UInt64.ofNat_toNat]

theorem decode_credit (n : UInt32) : decode .credit (toLe 4 n.toNat) = .ok (.credit n) := by
  rw [decode, readWord_toLe _ _ n.toNat_lt]
  change Except.ok (credit (UInt32.ofNat n.toNat)) = _
  rw [UInt32.ofNat_toNat]

theorem decode_exit (status : Int32) :
    decode .exit (toLe 4 status.toUInt32.toNat) = .ok (.exit status) := by
  rw [decode, readWord_toLe _ _ status.toUInt32.toNat_lt]
  change Except.ok (exit (UInt32.ofNat status.toUInt32.toNat).toInt32) = _
  rw [UInt32.ofNat_toNat]
  rfl

theorem decode_resize (cols rows pxW pxH : UInt16) :
    decode .resize (resize cols rows pxW pxH).payload = .ok (resize cols rows pxW pxH) := by
  have h0 := u16_between [] (toLe 2 rows.toNat ++ (toLe 2 pxW.toNat ++ toLe 2 pxH.toNat)) cols
  have h2 := u16_between (toLe 2 cols.toNat) (toLe 2 pxW.toNat ++ toLe 2 pxH.toNat) rows
  have h4 := u16_between (toLe 2 cols.toNat ++ toLe 2 rows.toNat) (toLe 2 pxH.toNat) pxW
  have h6 := u16_between (toLe 2 cols.toNat ++ toLe 2 rows.toNat ++ toLe 2 pxW.toNat) [] pxH
  simp only [List.length_nil, List.length_append, length_toLe, List.nil_append, List.append_nil,
    List.append_assoc] at h0 h2 h4 h6
  simp only [payload, decode, List.append_assoc, List.length_append, length_toLe, h0, h2, h4, h6]
  rfl

theorem decode_checkpoint (endingOffset hash : UInt64) (blob : List UInt8) :
    decode .checkpoint (checkpoint endingOffset hash blob).payload =
      .ok (checkpoint endingOffset hash blob) := by
  have h0 := u64_between [] (toLe 8 hash.toNat ++ blob) endingOffset
  have h8 := u64_between (toLe 8 endingOffset.toNat) blob hash
  have hblob : (toLe 8 endingOffset.toNat ++ (toLe 8 hash.toNat ++ blob)).drop 16 = blob := by
    rw [← List.append_assoc]
    exact List.drop_left' (by simp)
  simp only [List.length_nil, length_toLe, List.nil_append, List.drop_zero] at h0 h8
  simp only [payload, decode, List.append_assoc]
  rw [if_neg (by simp; omega), h0, h8, hblob]

theorem decode_delta (startOffset : UInt64) (bytes : List UInt8) :
    decode .delta (delta startOffset bytes).payload = .ok (delta startOffset bytes) := by
  have h0 := u64_between [] bytes startOffset
  have hbytes : (toLe 8 startOffset.toNat ++ bytes).drop 8 = bytes := List.drop_left' (by simp)
  simp only [List.length_nil, List.nil_append, List.drop_zero] at h0
  have hlen : ¬ (delta startOffset bytes).payload.length < 8 := by simp [payload]
  rw [decode, if_neg hlen]
  dsimp only [payload]
  rw [h0, hbytes]

theorem decode_attach_short (generation : UInt64) :
    decode .attach (toLe 8 generation.toNat) = .ok (.attach generation none protocolVersion false) := by
  have h0 := u64_between [] [] generation
  simp only [List.length_nil, List.nil_append, List.append_nil] at h0
  rw [decode]
  dsimp only
  rw [if_pos (length_toLe 8 _), h0]

theorem decode_attach_named (generation id : UInt64) :
    decode .attach (toLe 8 generation.toNat ++ toLe 8 id.toNat) =
      .ok (.attach generation (some id) protocolVersion false) := by
  have h0 := u64_between [] (toLe 8 id.toNat) generation
  have h8 := u64_between (toLe 8 generation.toNat) [] id
  simp only [List.length_nil, length_toLe, List.nil_append, List.append_nil] at h0 h8
  rw [decode]
  dsimp only
  rw [if_neg (by simp), if_pos (by simp), h0, h8]

theorem payload_attach_some (generation id : UInt64) (protocol : UInt8) (observe : Bool) :
    (attach generation (some id) protocol observe).payload =
      toLe 8 generation.toNat ++ (toLe 8 id.toNat ++
        if long protocol observe then attachExtra protocol observe else []) := rfl

theorem payload_attach_none (generation : UInt64) (protocol : UInt8) (observe : Bool) :
    (attach generation none protocol observe).payload =
      toLe 8 generation.toNat ++
        if long protocol observe then toLe 8 0 ++ attachExtra protocol observe else [] := rfl

theorem flags_observe (observe : Bool) :
    decide ((if observe then attachFlagObserve else 0) &&& attachFlagObserve ≠ 0) = observe := by
  cases observe <;> rfl

theorem decode_attach_long (generation id : UInt64) (protocol : UInt8) (observe : Bool) :
    decode .attach (toLe 8 generation.toNat ++ (toLe 8 id.toNat ++ attachExtra protocol observe)) =
      .ok (.attach generation (if id = 0 then none else some id) protocol observe) := by
  have h0 := u64_between [] (toLe 8 id.toNat ++ attachExtra protocol observe) generation
  have h8 := u64_between (toLe 8 generation.toNat) (attachExtra protocol observe) id
  have hextra : (toLe 8 generation.toNat ++ (toLe 8 id.toNat ++ attachExtra protocol observe)).drop 16 =
      attachExtra protocol observe := by
    rw [← List.append_assoc]
    exact List.drop_left' (by simp)
  simp only [List.length_nil, length_toLe, List.nil_append] at h0 h8
  have hprotocol : (toLe 8 generation.toNat ++ (toLe 8 id.toNat ++
      attachExtra protocol observe)).getD 16 0 = protocol := by
    rw [List.getD_eq_getElem?_getD, ← Nat.add_zero 16, ← List.getElem?_drop, hextra]
    rfl
  have hflags : (toLe 8 generation.toNat ++ (toLe 8 id.toNat ++
      attachExtra protocol observe)).getD 17 0 = if observe then attachFlagObserve else 0 := by
    rw [List.getD_eq_getElem?_getD, ← List.getElem?_drop (i := 16) (j := 1), hextra]
    rfl
  have hlen : (toLe 8 generation.toNat ++ (toLe 8 id.toNat ++
      attachExtra protocol observe)).length = 18 := by
    simp [attachExtra]
  generalize toLe 8 generation.toNat ++ (toLe 8 id.toNat ++ attachExtra protocol observe) = p at *
  have hobserve := flags_observe observe
  rw [← hflags] at hobserve
  simp only [List.drop_zero] at h0
  simp only [decode, hlen, List.drop_zero, h0, h8, hprotocol, hobserve]
  rfl

/-- A frame comes out as it went in, but for the id 0 in a long ATTACH. -/
theorem decode_payload (f : Frame) : decode f.tag f.payload = .ok f.received := by
  cases f with
  | data bytes => rfl
  | credit n => exact decode_credit n
  | resize cols rows pxW pxH => exact decode_resize cols rows pxW pxH
  | exit status => exact decode_exit status
  | attach generation sessionId protocol observe =>
    cases sessionId with
    | none =>
      rw [payload_attach_none]
      cases hlong : long protocol observe with
      | false =>
        obtain ⟨rfl, rfl⟩ := of_not_long hlong
        exact decode_attach_short generation
      | true => exact decode_attach_long generation 0 protocol observe
    | some id =>
      rw [payload_attach_some, received, inBand]
      cases hlong : long protocol observe with
      | false =>
        obtain ⟨rfl, rfl⟩ := of_not_long hlong
        rw [Bool.and_false]
        exact decode_attach_named generation id
      | true =>
        refine (decode_attach_long generation id protocol observe).trans ?_
        by_cases hid : id = 0
        · simp [hid]
        · simp [hid]
  | refused reason => cases reason <;> rfl
  | checkpoint endingOffset hash blob => exact decode_checkpoint endingOffset hash blob
  | delta startOffset bytes => exact decode_delta startOffset bytes
  | resyncRequest => rfl

theorem received_inj_of_payload {f g : Frame} (htag : f.tag = g.tag) (hpayload : f.payload = g.payload) :
    f.received = g.received := by
  have hf := decode_payload f
  rw [htag, hpayload, decode_payload g] at hf
  exact (Except.ok.inj hf).symm

theorem payload_received (f : Frame) : f.received.payload = f.payload := by
  cases hin : f.inBand with
  | false => rw [received_of_not_inBand hin]
  | true =>
    cases f with
    | attach generation sessionId protocol observe =>
      obtain ⟨rfl, hlong⟩ : sessionId = some 0 ∧ long protocol observe = true := by
        simpa [inBand] using hin
      rw [received, hin, if_pos rfl, payload_attach_some, payload_attach_none, hlong]
      rfl
    | data | credit | resize | exit | refused | checkpoint | delta | resyncRequest => cases hin

theorem tag_received (f : Frame) : f.received.tag = f.tag := by
  unfold received
  split
  case h_1 =>
    split
    case isTrue => rfl
    case isFalse => rfl
  case h_2 => rfl

theorem encode_eq_iff {f g : Frame} (hf : f.Fits) (hg : g.Fits) :
    f.encode = g.encode ↔ f.received = g.received := by
  rw [encode_of_fits hf, encode_of_fits hg]
  constructor
  · intro h
    obtain ⟨htag, hrest⟩ := List.cons.inj (Except.ok.inj h)
    have hlen : (toLe 4 f.payload.length).length = (toLe 4 g.payload.length).length := by simp
    obtain ⟨-, hpayload⟩ := List.append_inj hrest hlen
    have hf' := Tag.fromU8_toU8 f.tag
    rw [htag, Tag.fromU8_toU8] at hf'
    exact received_inj_of_payload (Except.ok.inj hf').symm hpayload
  · intro h
    rw [wire, wire, ← payload_received f, ← tag_received f, h, payload_received, tag_received]

end Frame

namespace Decoder

theorem front_wire {f : Frame} (h : f.Fits) (rest : List UInt8) :
    front (f.wire ++ rest) = .frame f.received rest := by
  have hsmall : f.payload.length < 256 ^ 4 :=
    Nat.lt_of_le_of_lt h (by decide)
  have hwire : f.wire ++ rest =
      f.tag.toU8 :: (toLe 4 f.payload.length ++ (f.payload ++ rest)) := by
    rw [Frame.wire, List.cons_append, List.append_assoc]
  have hlen : (f.wire ++ rest).length = 5 + f.payload.length + rest.length := by
    rw [hwire]
    simp
    omega
  have hword : ofLe (((f.wire ++ rest).drop 1).take 4) = f.payload.length := by
    rw [hwire, List.drop_one, List.tail_cons, List.take_left' (length_toLe 4 _), ofLe_toLe_of_lt hsmall]
  have hdrop : (f.wire ++ rest).drop 5 = f.payload ++ rest := by
    rw [hwire, List.drop_succ_cons]
    exact List.drop_left' (length_toLe 4 _)
  have hpayload : ((f.wire ++ rest).drop 5).take f.payload.length = f.payload := by
    rw [hdrop, List.take_left]
  have hrest : (f.wire ++ rest).drop (5 + f.payload.length) = rest := by
    rw [← List.drop_drop, hdrop, List.drop_left]
  have htag : Tag.fromU8 ((f.wire ++ rest).headD 0) = .ok f.tag := Tag.fromU8_toU8 f.tag
  rw [front, if_neg (by omega), htag]
  dsimp only
  rw [hword, if_neg (Nat.not_lt.mpr h), if_neg (by omega), hpayload, Frame.decode_payload, hrest]

theorem reads_wires {fs : List Frame} (h : ∀ f ∈ fs, f.Fits) (rest : List UInt8) :
    framing.Reads (fs.flatMap Frame.wire ++ rest) (fs.map Frame.received) rest := by
  induction fs with
  | nil => exact .nil
  | cons f fs ih =>
    obtain ⟨hf, hfs⟩ := List.forall_mem_cons.mp h
    rw [List.flatMap_cons, List.append_assoc]
    exact .cons (front_wire hf _) (ih hfs)

theorem front_nil : framing.front [] = .wait := rfl

theorem length_of_wait {buf : List UInt8} (h : front buf = .wait) : buf.length < maxFrame + 5 := by
  rw [front] at h
  split at h
  case isTrue hshort => exact Nat.lt_of_lt_of_le hshort (Nat.le_add_left _ _)
  case isFalse =>
    cases htag : Tag.fromU8 (buf.headD 0) with
    | error e =>
      rw [htag] at h
      cases h
    | ok tag =>
      rw [htag] at h
      dsimp only at h
      split at h
      case isTrue => cases h
      case isFalse hle =>
        split at h
        case isTrue hlt => omega
        case isFalse =>
          split at h
          case h_1 => cases h
          case h_2 => cases h

/-- Whatever came before, a push that succeeds leaves less than the largest frame. -/
theorem length_push {d d' : Decoder} {bytes : List UInt8} {frames : List Frame}
    (h : d.push bytes = .ok (frames, d')) : d'.buf.length < maxFrame + 5 := by
  rw [push_eq, pushKeeping] at h
  obtain ⟨fs, t, -, ht, hpush⟩ | ⟨fs, t, e, left, -, -, hpush⟩ := framing.push_cases d.buf bytes
  · rw [hpush] at h
    obtain ⟨-, rfl⟩ := Prod.mk.inj (Except.ok.inj h)
    exact length_of_wait ht
  · rw [hpush] at h
    cases h

-- ---------------------------------------------------------------------------
-- Round trips
-- ---------------------------------------------------------------------------

/-- An ATTACH that names the session id 0, which no session has. -/
def namesZero : Frame → Bool
  | .attach _ sessionId _ _ => sessionId = some 0
  | _ => false

theorem received_of_not_namesZero {f : Frame} (h : namesZero f = false) : f.received = f := by
  refine Frame.received_of_not_inBand ?_
  cases f with
  | attach generation sessionId protocol observe =>
    have hid : decide (sessionId = some 0) = false := h
    rw [Frame.inBand, hid, Bool.false_and]
  | data | credit | resize | exit | refused | checkpoint | delta | resyncRequest => rfl

theorem batches_of_not_failed {results : List (Except Error (List Frame))}
    (h : Framing.failed results = false) :
    ∃ batches : List (List Frame), results = batches.map Except.ok ∧
      batches.flatten = Framing.delivered results := by
  induction results with
  | nil => exact ⟨[], rfl, rfl⟩
  | cons r results ih =>
    cases r with
    | error e => cases h
    | ok frames =>
      obtain ⟨batches, rfl, hflat⟩ := ih h
      exact ⟨frames :: batches, rfl, by rw [List.flatten_cons, hflat, Framing.delivered]⟩

/-- The frames of a stream come out as they went in, however it is cut, and nothing
is left over; and no push that succeeds ever leaves as much as the largest frame. -/
theorem pushes_wires {fs : List Frame} {pieces : List (List UInt8)} (hfit : ∀ f ∈ fs, f.Fits)
    (hid : ∀ f ∈ fs, namesZero f = false) (hcut : pieces.flatten = fs.flatMap Frame.wire) :
    (∀ f ∈ fs, f.encode = .ok f.wire) ∧
      (∃ batches : List (List Frame), (new.pushes pieces).1 = batches.map Except.ok ∧ batches.flatten = fs) ∧
      (new.pushes pieces).2 = new ∧
      ∀ (d d' : Decoder) (bytes : List UInt8) (frames : List Frame),
        d.push bytes = .ok (frames, d') → d'.buf.length < maxFrame + 5 := by
  have hreads := reads_wires hfit []
  have hsame : fs.map Frame.received = fs :=
    List.map_congr_left (g := id) (fun f hf => received_of_not_namesZero (hid f hf)) |>.trans
      (List.map_id fs)
  rw [List.append_nil, ← hcut, hsame] at hreads
  obtain ⟨hok, hframes, hend⟩ := Framing.pushes_wait front_nil hreads front_nil
  obtain ⟨batches, hresults, hflat⟩ := batches_of_not_failed hok
  refine ⟨fun f hf => Frame.encode_of_fits (hfit f hf), ?_, ?_, fun _ _ _ _ h => length_push h⟩
  · rw [pushes_eq]
    exact ⟨batches, hresults, hflat.trans hframes⟩
  · rw [pushes_eq]
    exact congrArg Decoder.mk hend

/-- An observer's ATTACH and a DATA frame, cut inside both headers. -/
theorem pushes_wires_cut :
    ∃ batches : List (List Frame), (new.pushes [[5, 18, 0, 0],
      [0, 9, 0, 0, 0, 0, 0, 0, 0, 3, 0, 0, 0, 0, 0, 0, 0, 1, 1, 1, 2],
      [0, 0, 0, 7, 8]]).1 = batches.map Except.ok ∧
        batches.flatten = [.attach 9 (some 3) protocolVersion true, .data [7, 8]] :=
  (@pushes_wires [.attach 9 (some 3) protocolVersion true, .data [7, 8]] _
    (by decide) (by decide) (by decide)).2.1

end Decoder

namespace Frame

/-- Frames that fit are sent alike only where they are taken for the same, and a frame is
taken for itself unless it names the id 0 in the band. -/
theorem encode_decode {f g : Frame} (hf : f.Fits) (hg : g.Fits) :
    (f.encode = g.encode ↔ f.received = g.received) ∧
      f.encode = .ok f.wire ∧ Decoder.new.push f.wire = .ok ([f.received], .new) ∧
      (f.received = f ↔ f.inBand = false) := by
  refine ⟨encode_eq_iff hf hg, encode_of_fits hf, ?_, received_eq_self_iff⟩
  have hreads : Decoder.framing.Reads (([] : List UInt8) ++ f.wire) [f.received] [] := by
    have h := Decoder.front_wire hf []
    rw [List.append_nil] at h
    exact .cons h .nil
  rw [Decoder.push_eq, Decoder.pushKeeping]
  change Except.map _ (Decoder.framing.push [] f.wire).1 = _
  rw [Framing.push_wait hreads Decoder.front_nil]
  change Except.ok ([f.received], Decoder.mk (Decoder.framing.push [] f.wire).2) = _
  rw [Framing.push_wait hreads Decoder.front_nil]
  rfl

theorem encode_decode_observer :
    Decoder.new.push (attach 1 (some 7) protocolVersion true).wire =
      .ok ([(attach 1 (some 7) protocolVersion true).received], .new) :=
  (encode_decode (f := attach 1 (some 7) protocolVersion true) (g := resyncRequest)
    (by decide) (by decide)).2.2.1

/-- Two observers' ATTACHs, one for the session 0 and one for the default leaf. -/
theorem encode_session_zero :
    attach 1 (some 0) protocolVersion true ≠ attach 1 none protocolVersion true ∧
      (attach 1 (some 0) protocolVersion true).Fits ∧ (attach 1 none protocolVersion true).Fits ∧
      (attach 1 (some 0) protocolVersion true).encode = (attach 1 none protocolVersion true).encode ∧
      Decoder.new.push (attach 1 (some 0) protocolVersion true).wire =
        .ok ([attach 1 none protocolVersion true], .new) :=
  ⟨by decide, by decide, by decide, rfl, rfl⟩

end Frame

namespace Decoder

-- ---------------------------------------------------------------------------
-- Malformed streams
-- ---------------------------------------------------------------------------

/-- All of `fs` is in front of what is malformed or not complete. -/
def Complete (b : List UInt8) (fs : List Frame) : Prop :=
  ∃ t, framing.Reads b fs t ∧ ∀ f rest, front t ≠ .frame f rest

/-- What a stream comes to is settled by the stream, and an error is final. -/
structure FailsClosed (b : List UInt8) : Prop where
  frames : ∀ pieces fs, pieces.flatten = b → Complete b fs →
    Framing.delivered (new.pushes pieces).1 = fs
  errors : ∀ pieces pieces', pieces.flatten = b → pieces'.flatten = b →
    Framing.failed (new.pushes pieces).1 = Framing.failed (new.pushes pieces').1
  final : ∀ pieces later, pieces.flatten = b → Framing.failed (new.pushes pieces).1 = true →
    ∀ r ∈ Framing.sinceError (new.pushes (pieces ++ later)).1, ∃ e, r = .error e

/-- Somewhere behind complete frames there is one that is malformed. -/
def Malformed (b : List UInt8) : Prop :=
  ∃ fs t e left, framing.Reads b fs t ∧ front t = .fail e left

/-- The stream starts with a tag that is none or a length that is too large. -/
def BadHeader (b : List UInt8) : Prop :=
  5 ≤ b.length ∧
    ((∃ e, Tag.fromU8 (b.headD 0) = .error e) ∨ maxFrame < ofLe ((b.drop 1).take 4))

theorem front_of_badHeader {b : List UInt8} (h : BadHeader b) : ∃ e, front b = .fail e b := by
  obtain ⟨hfive, hbad⟩ := h
  rw [front, if_neg (Nat.not_lt.mpr hfive)]
  cases htag : Tag.fromU8 (b.headD 0) with
  | error e => exact ⟨e, rfl⟩
  | ok tag =>
    rcases hbad with ⟨e, htag'⟩ | hlarge
    · rw [htag] at htag'
      cases htag'
    · dsimp only
      rw [if_pos hlarge]
      exact ⟨_, rfl⟩

theorem pushes_new (pieces : List (List UInt8)) :
    (new.pushes pieces).1 = (framing.pushes [] pieces).1 := by
  rw [pushes_eq]
  rfl

/-- A payload that does not decode is taken off, and a push of nothing then succeeds. -/
theorem pushes_after_payload {b : List UInt8} {tag : Tag} {len : Nat} {e : Error}
    (htag : Tag.fromU8 (b.headD 0) = .ok tag) (hlen : ofLe ((b.drop 1).take 4) = len)
    (hle : len ≤ maxFrame) (hall : 5 + len ≤ b.length)
    (hdecode : Frame.decode tag ((b.drop 5).take len) = .error e) (pieces : List (List UInt8)) :
    (framing.pushes [] (b.take (5 + len) :: [] :: pieces)).1 =
      .error e :: .ok [] :: (framing.pushes [] pieces).1 := by
  have hhead : (b.take (5 + len)).headD 0 = b.headD 0 := by
    have h := @headD_append (b.take (5 + len)) (by simp; omega) (b.drop (5 + len))
    rw [List.take_append_drop] at h
    exact h.symm
  have hword : ((b.take (5 + len)).drop 1).take 4 = (b.drop 1).take 4 := by
    have h := @length_append (b.take (5 + len)) (by simp; omega) (b.drop (5 + len))
    rw [List.take_append_drop] at h
    exact h.symm
  have hpayload : ((b.take (5 + len)).drop 5).take len = (b.drop 5).take len := by
    have h := @payload_append (b.take (5 + len)) len (by simp; omega) (b.drop (5 + len))
    rw [List.take_append_drop] at h
    exact h.symm
  have hnone : (b.take (5 + len)).drop (5 + len) = [] :=
    List.drop_eq_nil_of_le (List.length_take_le _ _)
  have hfront : front (b.take (5 + len)) = .fail e [] := by
    have hlength : (b.take (5 + len)).length = 5 + len := by
      rw [List.length_take]
      omega
    rw [front, hlength, if_neg (by omega), hhead, htag]
    dsimp only
    rw [hword, hlen, if_neg (Nat.not_lt.mpr hle), if_neg (Nat.lt_irrefl _), hpayload, hdecode, hnone]
  have hpush : framing.push [] (b.take (5 + len)) = (.error e, []) :=
    Framing.push_fail (F := framing) .nil hfront
  rw [Framing.pushes, hpush]
  rfl

theorem Complete.eq_of_reads {b t : List UInt8} {fs gs : List Frame} (h : Complete b fs)
    (hreads : framing.Reads b gs t) (ht : ∀ f rest, front t ≠ .frame f rest) : fs = gs := by
  obtain ⟨u, hreads', hu⟩ := h
  exact (hreads'.unique hreads hu ht).1

theorem failsClosed_of_not_malformed {b : List UInt8} (h : ¬ Malformed b) : FailsClosed b := by
  obtain ⟨fs, t, hreads, ht | ⟨e, left, ht⟩⟩ := framing.exists_reads b
  · have hpieces : ∀ pieces : List (List UInt8), pieces.flatten = b →
        Framing.failed (new.pushes pieces).1 = false ∧ Framing.delivered (new.pushes pieces).1 = fs := by
      rintro pieces rfl
      obtain ⟨hok, hframes, -⟩ := Framing.pushes_wait front_nil hreads ht
      rw [pushes_new]
      exact ⟨hok, hframes⟩
    have hfront : ∀ f rest, front t ≠ .frame f rest := by
      change front t = .wait at ht
      simp [ht]
    refine ⟨fun pieces gs hcut hgs => ?_, fun pieces pieces' hcut hcut' => ?_,
      fun pieces later hcut hfailed => ?_⟩
    · rw [(hpieces pieces hcut).2, hgs.eq_of_reads hreads hfront]
    · rw [(hpieces pieces hcut).1, (hpieces pieces' hcut').1]
    · rw [(hpieces pieces hcut).1] at hfailed
      cases hfailed
  · exact absurd ⟨fs, t, e, left, hreads, ht⟩ h

/-- A bad header at the very start stays in the buffer, and nothing is ever delivered. -/
theorem failsClosed_of_badHeader {b : List UInt8} (h : BadHeader b) : FailsClosed b := by
  obtain ⟨e, ht⟩ := front_of_badHeader h
  have hfront : ∀ f rest, front b ≠ .frame f rest := by simp [ht]
  have hpieces : ∀ pieces : List (List UInt8), pieces.flatten = b →
      Framing.failed (new.pushes pieces).1 = true ∧ Framing.delivered (new.pushes pieces).1 = [] := by
    rintro pieces rfl
    obtain ⟨hfailed, hframes⟩ :=
      Framing.pushes_fail front_nil .nil ht
    rw [pushes_new]
    exact ⟨hfailed, List.prefix_nil.mp hframes⟩
  refine ⟨fun pieces gs hcut hgs => ?_, fun pieces pieces' hcut hcut' => ?_,
    fun pieces later hcut _ r hr => ?_⟩
  · rw [(hpieces pieces hcut).2, hgs.eq_of_reads .nil hfront]
  · rw [(hpieces pieces hcut).1, (hpieces pieces' hcut').1]
  · subst hcut
    rw [pushes_new] at hr
    exact ⟨e, Framing.sinceError_stuck front_nil .nil ht r hr⟩

/-- A stream fails closed unless a complete frame is in front of its malformed one or
the malformed one is so in its payload. -/
theorem failsClosed_iff (b : List UInt8) : FailsClosed b ↔ ¬ Malformed b ∨ BadHeader b := by
  refine ⟨fun h => ?_, fun h => h.elim failsClosed_of_not_malformed failsClosed_of_badHeader⟩
  by_cases hmal : Malformed b
  · obtain ⟨fs, t, e, left, hreads, ht⟩ := hmal
    -- pushed whole, the stream delivers nothing
    have hwhole : framing.push [] b = (.error e, left) := Framing.push_fail (F := framing) hreads ht
    have hnone := h.frames [b] fs (by simp) ⟨t, hreads, by simp [ht]⟩
    rw [pushes_new, Framing.pushes, hwhole] at hnone
    obtain rfl : [] = fs := hnone
    cases hreads
    refine .inr ?_
    rcases front_cases b with hwait | ⟨hfive, ⟨e', htag, -⟩ | ⟨tag, len, htag, hlen, ⟨hlarge, -⟩ |
      ⟨hle, hall, ⟨e', hdecode, -⟩ | ⟨f, -, hfront⟩⟩⟩⟩
    · rw [hwait] at ht
      cases ht
    · exact ⟨hfive, .inl ⟨e', htag⟩⟩
    · exact ⟨hfive, .inr (hlen ▸ hlarge)⟩
    · -- cut behind the malformed frame, with an empty push that succeeds
      have hcut : [b.take (5 + len), [], b.drop (5 + len)].flatten = b := by simp
      have hrun := pushes_after_payload htag hlen hle hall hdecode [b.drop (5 + len)]
      have hfinal := h.final [b.take (5 + len), [], b.drop (5 + len)] [] hcut
      rw [List.append_nil, pushes_new, hrun] at hfinal
      obtain ⟨e'', he⟩ := hfinal rfl (.ok []) (by simp [Framing.sinceError, Except.isOk, Except.toBool])
      cases he
    · rw [hfront] at ht
      cases ht
  · exact .inl hmal

/-- A RESYNC_REQUEST in front of an unknown tag: lost when they come in one push. -/
theorem not_failsClosed : ¬ FailsClosed [9, 0, 0, 0, 0, 255, 0, 0, 0, 0] := by
  intro h
  have hframes : Complete [9, 0, 0, 0, 0, 255, 0, 0, 0, 0] [.resyncRequest] :=
    ⟨[255, 0, 0, 0, 0], .cons rfl .nil, fun f rest hfront => by cases hfront⟩
  have hlost := h.frames [[9, 0, 0, 0, 0, 255, 0, 0, 0, 0]] _ rfl hframes
  cases hlost

end Decoder

end Rill.Attach
