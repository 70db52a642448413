import Rill.Lib.Bytes

/-!
# The attach codec

Frames on the attach socket: one tag byte, a little-endian length, a payload.
-/

namespace Rill.Attach

open Lib.Bytes

def maxFrame : Nat := 4 * 1024 * 1024

def protocolVersion : UInt8 := 1

def protocol2 : UInt8 := 2

/-- Bit 0 of an ATTACH's flags. -/
def attachFlagObserve : UInt8 := 1

inductive Error
  | unknownTag (tag : UInt8)
  | unknownRefuse (reason : UInt8)
  | truncated
  | tooLarge (len : Nat)
  deriving DecidableEq, Repr

inductive Tag
  | data
  | credit
  | resize
  | exit
  | attach
  | refused
  | checkpoint
  | delta
  | resyncRequest
  deriving DecidableEq, Repr

inductive RefuseReason
  | alreadyAttached
  | invalid
  | protocolMismatch
  deriving DecidableEq, Repr

inductive Frame
  | data (bytes : List UInt8)
  | credit (n : UInt32)
  | resize (cols rows pxW pxH : UInt16)
  | exit (status : Int32)
  | attach (generation : UInt64) (sessionId : Option UInt64) (protocol : UInt8) (observe : Bool)
  | refused (reason : RefuseReason)
  | checkpoint (endingOffset hash : UInt64) (blob : List UInt8)
  | delta (startOffset : UInt64) (bytes : List UInt8)
  | resyncRequest
  deriving DecidableEq, Repr

namespace Tag

def toU8 : Tag → UInt8
  | data => 1
  | credit => 2
  | resize => 3
  | exit => 4
  | attach => 5
  | refused => 6
  | checkpoint => 7
  | delta => 8
  | resyncRequest => 9

def fromU8 (v : UInt8) : Except Error Tag :=
  match v with
  | 1 => .ok data
  | 2 => .ok credit
  | 3 => .ok resize
  | 4 => .ok exit
  | 5 => .ok attach
  | 6 => .ok refused
  | 7 => .ok checkpoint
  | 8 => .ok delta
  | 9 => .ok resyncRequest
  | other => .error (.unknownTag other)

end Tag

namespace RefuseReason

def toU8 : RefuseReason → UInt8
  | alreadyAttached => 1
  | invalid => 2
  | protocolMismatch => 3

def fromU8 (v : UInt8) : Except Error RefuseReason :=
  match v with
  | 1 => .ok alreadyAttached
  | 2 => .ok invalid
  | 3 => .ok protocolMismatch
  | other => .error (.unknownRefuse other)

end RefuseReason

namespace Frame

def tag : Frame → Tag
  | data _ => .data
  | credit _ => .credit
  | resize .. => .resize
  | exit _ => .exit
  | attach .. => .attach
  | refused _ => .refused
  | checkpoint .. => .checkpoint
  | delta .. => .delta
  | resyncRequest => .resyncRequest

def isData : Frame → Bool
  | data _ => true
  | _ => false

def isExit : Frame → Bool
  | exit _ => true
  | _ => false

def isAttach : Frame → Bool
  | attach .. => true
  | _ => false

def isCheckpoint : Frame → Bool
  | checkpoint .. => true
  | _ => false

/-- What a client may send while a key travels to the screen. -/
def isWarmPath : Frame → Bool
  | data _ => true
  | credit _ => true
  | _ => false

def attachWriter (generation : UInt64) (sessionId : Option UInt64) : Frame :=
  .attach generation sessionId protocolVersion false

def protocolSupported (protocol : UInt8) : Bool :=
  protocol = protocolVersion || protocol = protocol2

/-- The protocol and flags bytes of an ATTACH that needs them. -/
def attachExtra (protocol : UInt8) (observe : Bool) : List UInt8 :=
  [protocol, if observe then attachFlagObserve else 0]

def payload : Frame → List UInt8
  | data bytes => bytes
  | credit n => toLe 4 n.toNat
  | resize cols rows pxW pxH =>
    toLe 2 cols.toNat ++ toLe 2 rows.toNat ++ toLe 2 pxW.toNat ++ toLe 2 pxH.toNat
  | exit status => toLe 4 status.toUInt32.toNat
  | attach generation sessionId protocol observe =>
    let extra := protocol ≠ protocolVersion || observe
    toLe 8 generation.toNat ++
      match sessionId with
      | some id => toLe 8 id.toNat ++ if extra then attachExtra protocol observe else []
      | none => if extra then toLe 8 0 ++ attachExtra protocol observe else []
  | refused reason => [reason.toU8]
  | checkpoint endingOffset hash blob => toLe 8 endingOffset.toNat ++ toLe 8 hash.toNat ++ blob
  | delta startOffset bytes => toLe 8 startOffset.toNat ++ bytes
  | resyncRequest => []

/-- The frame on the wire, when its payload fits. -/
def wire (f : Frame) : List UInt8 := f.tag.toU8 :: (toLe 4 f.payload.length ++ f.payload)

def encode (f : Frame) : Except Error (List UInt8) :=
  if f.payload.length > maxFrame then .error (.tooLarge f.payload.length) else .ok f.wire

def readWord (k : Nat) (p : List UInt8) : Except Error Nat :=
  if p.length ≠ k then .error .truncated else .ok (ofLe p)

def decode (tag : Tag) (p : List UInt8) : Except Error Frame :=
  match tag with
  | .data => .ok (.data p)
  | .credit => do pure (.credit (UInt32.ofNat (← readWord 4 p)))
  | .resize =>
    if p.length ≠ 8 then .error .truncated
    else
      let word (i : Nat) : UInt16 := UInt16.ofNat (ofLe ((p.drop i).take 2))
      .ok (.resize (word 0) (word 2) (word 4) (word 6))
  | .exit => do pure (.exit (UInt32.ofNat (← readWord 4 p)).toInt32)
  | .attach =>
    let word (i : Nat) : UInt64 := UInt64.ofNat (ofLe ((p.drop i).take 8))
    if p.length = 8 then .ok (.attach (word 0) none protocolVersion false)
    else if p.length = 16 then .ok (.attach (word 0) (some (word 8)) protocolVersion false)
    else if p.length = 18 then
      .ok (.attach (word 0) (if word 8 = 0 then none else some (word 8)) (p.getD 16 0)
        (p.getD 17 0 &&& attachFlagObserve ≠ 0))
    else .error .truncated
  | .refused =>
    match p with
    | [b] => do pure (.refused (← RefuseReason.fromU8 b))
    | _ => .error .truncated
  | .checkpoint =>
    if p.length < 16 then .error .truncated
    else .ok (.checkpoint (UInt64.ofNat (ofLe (p.take 8)))
      (UInt64.ofNat (ofLe ((p.drop 8).take 8))) (p.drop 16))
  | .delta =>
    if p.length < 8 then .error .truncated
    else .ok (.delta (UInt64.ofNat (ofLe (p.take 8))) (p.drop 8))
  | .resyncRequest => if p.isEmpty then .ok .resyncRequest else .error .truncated

end Frame

-- ---------------------------------------------------------------------------
-- Decoder
-- ---------------------------------------------------------------------------

structure Decoder where
  buf : List UInt8
  deriving DecidableEq, Repr

namespace Decoder

def new : Decoder := ⟨[]⟩

/-- The frames at the front of `buf`, and what is left of it. A frame takes at
least five bytes, so as many turns as there are bytes are enough. -/
def drain : Nat → List UInt8 → Except Error (List Frame × List UInt8)
  | 0, buf => .ok ([], buf)
  | turns + 1, buf =>
    if buf.length < 5 then .ok ([], buf)
    else do
      let tag ← Tag.fromU8 (buf.headD 0)
      let len := ofLe ((buf.drop 1).take 4)
      if len > maxFrame then throw (.tooLarge len)
      if buf.length < 5 + len then
        if buf.length > maxFrame + 5 then throw (.tooLarge buf.length)
        pure ([], buf)
      else
        let frame ← Frame.decode tag ((buf.drop 5).take len)
        let (frames, rest) ← drain turns (buf.drop (5 + len))
        pure (frame :: frames, rest)

def push (d : Decoder) (bytes : List UInt8) : Except Error (List Frame × Decoder) := do
  let buf := d.buf ++ bytes
  let (frames, rest) ← drain (buf.length + 1) buf
  pure (frames, ⟨rest⟩)

end Decoder

end Rill.Attach
