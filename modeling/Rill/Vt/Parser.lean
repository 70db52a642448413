import Rill.Vt.Types

/-!
# The byte state machine

`Parser.step` reads one byte and returns the calls it makes on `Actions`, in
order; the parser holds no grid and never reads one back. The fixed arrays with
their lengths (`params`, `intermediates`, `osc`, `utf8`) are the lists of the
entries in use, bounded where the source bounds its writes.
-/

namespace Rill.Vt

inductive State
  | ground
  | escape
  | escapeIntermediate
  | csiEntry
  | csiParam
  | csiIntermediate
  | csiIgnore
  | oscString
  | oscEscape
  | dcsPassthrough
  | dcsEscape
  | sosPmApc
  | sosEscape
  deriving DecidableEq, Repr

/-- One call on the `Actions` trait. -/
inductive Action
  | print (c : Char)
  | execute (byte : UInt8)
  | csi (params : List UInt16) (intermediates : List UInt8) (ignore : Bool) (action : Char)
  | esc (intermediates : List UInt8) (byte : UInt8)
  | osc (payload : List UInt8)
  deriving DecidableEq, Repr

def maxParams : Nat := 32
def maxInter : Nat := 2
def maxOsc : Nat := 1024

structure Parser where
  state : State
  params : List UInt16
  paramAcc : Nat
  intermediates : List UInt8
  ignore : Bool
  osc : List UInt8
  utf8 : List UInt8
  utf8Needed : Nat
  putback : Option UInt8
  deriving DecidableEq, Repr

-- ---------------------------------------------------------------------------
-- Byte classes
-- ---------------------------------------------------------------------------

def between (lo hi b : UInt8) : Bool := lo ≤ b && b ≤ hi

/-- The C0 controls a sequence executes in passing: all but CAN, SUB and ESC. -/
def isC0 (b : UInt8) : Bool := b ≤ 0x17 || b = 0x19 || between 0x1c 0x1f b

def isCancel (b : UInt8) : Bool := b = 0x18 || b = 0x1a

def isFinal (b : UInt8) : Bool := between 0x40 0x7e b

def replacement : Char := '\uFFFD'

def charFrom (b : UInt8) : Char := Char.ofNat b.toNat

/-- The scalar of a lead byte and its continuation bytes, `none` when overlong,
a surrogate or out of range. -/
def decodeUtf8 (bytes : List UInt8) : Option Char :=
  let tail (b : UInt8) : Nat := (b &&& 0x3f).toNat
  let scalar (least n : Nat) : Option Char :=
    if least ≤ n ∧ n.isValidChar then some (Char.ofNat n) else none
  match bytes with
  | [a, b] => scalar 0x80 ((a &&& 0x1f).toNat * 64 + tail b)
  | [a, b, c] => scalar 0x800 (((a &&& 0x0f).toNat * 64 + tail b) * 64 + tail c)
  | [a, b, c, d] =>
    scalar 0x10000 ((((a &&& 0x07).toNat * 64 + tail b) * 64 + tail c) * 64 + tail d)
  | _ => none

namespace Parser

def new : Parser where
  state := .ground
  params := []
  paramAcc := 0
  intermediates := []
  ignore := false
  osc := []
  utf8 := []
  utf8Needed := 0
  putback := none

def isIdle (p : Parser) : Bool := p.state = .ground && p.utf8.isEmpty && p.putback.isNone

def reprocess (p : Parser) (b : UInt8) : Parser := { p with putback := some b }

def resetSeq (p : Parser) : Parser :=
  { p with params := [], paramAcc := 0, intermediates := [], ignore := false, osc := [] }

def abortUtf8 (p : Parser) : Parser × List Action :=
  if p.utf8Needed > 0 then
    ({ p with utf8 := [], utf8Needed := 0 }, [.print replacement])
  else (p, [])

def startUtf8 (p : Parser) (lead : UInt8) (needed : Nat) : Parser :=
  { p with utf8 := [lead], utf8Needed := needed }

def finishUtf8 (p : Parser) : Parser × List Action :=
  let c := (decodeUtf8 (p.utf8.take p.utf8Needed)).getD replacement
  ({ p with utf8 := [], utf8Needed := 0 }, [.print c])

def pushInter (p : Parser) (b : UInt8) : Parser :=
  if p.intermediates.length < maxInter then
    { p with intermediates := p.intermediates ++ [b] }
  else { p with ignore := true }

def pushDigit (p : Parser) (b : UInt8) : Parser :=
  { p with paramAcc := min (p.paramAcc * 10 + (b - 0x30).toNat) 65535 }

def finishParam (p : Parser) : Parser :=
  if p.params.length < maxParams then
    { p with params := p.params ++ [UInt16.ofNat (min p.paramAcc 65535)], paramAcc := 0 }
  else { p with ignore := true, paramAcc := 0 }

def pushOsc (p : Parser) (b : UInt8) : Parser :=
  if p.osc.length < maxOsc then { p with osc := p.osc ++ [b] } else { p with ignore := true }

-- ---------------------------------------------------------------------------
-- States
-- ---------------------------------------------------------------------------

def ground (p : Parser) (b : UInt8) : Parser × List Action :=
  if p.utf8Needed > 0 then
    if between 0x80 0xbf b then
      let p := { p with utf8 := p.utf8 ++ [b] }
      if p.utf8.length = p.utf8Needed then p.finishUtf8 else (p, [])
    else
      let (p, acts) := p.abortUtf8
      (p.reprocess b, acts)
  else if isC0 b then (p, [.execute b])
  else if isCancel b then ({ p.resetSeq with state := .ground }, [.execute b])
  else if b = 0x1b then ({ p.resetSeq with state := .escape }, [])
  else if between 0x20 0x7e b then (p, [.print (charFrom b)])
  else if b = 0x7f then (p, [])
  else if between 0x80 0xc1 b then (p, [.print replacement])
  else if between 0xc2 0xdf b then (p.startUtf8 b 2, [])
  else if between 0xe0 0xef b then (p.startUtf8 b 3, [])
  else if between 0xf0 0xf4 b then (p.startUtf8 b 4, [])
  else (p, [.print replacement])

def escape (p : Parser) (b : UInt8) : Parser × List Action :=
  if isC0 b then (p, [.execute b])
  else if isCancel b then ({ p with state := .ground }, [.execute b])
  else if b = 0x1b then (p.resetSeq, [])
  else if between 0x20 0x2f b then ({ p.pushInter b with state := .escapeIntermediate }, [])
  else if b = 0x50 then ({ p.resetSeq with state := .dcsPassthrough }, [])
  else if b = 0x58 || b = 0x5e || b = 0x5f then ({ p.resetSeq with state := .sosPmApc }, [])
  else if b = 0x5b then ({ p.resetSeq with state := .csiEntry }, [])
  else if b = 0x5d then ({ p.resetSeq with state := .oscString }, [])
  else if between 0x30 0x7e b then
    ({ p.resetSeq with state := .ground }, [.esc p.intermediates b])
  else if b = 0x7f then (p, [])
  else ({ p.resetSeq with state := .ground }, [])

def escapeIntermediate (p : Parser) (b : UInt8) : Parser × List Action :=
  if isC0 b then (p, [.execute b])
  else if isCancel b then ({ p with state := .ground }, [.execute b])
  else if b = 0x1b then ({ p.resetSeq with state := .escape }, [])
  else if between 0x20 0x2f b then (p.pushInter b, [])
  else if between 0x30 0x7e b then
    ({ p.resetSeq with state := .ground }, [.esc p.intermediates b])
  else ({ p.resetSeq with state := .ground }, [])

def dispatchCsi (p : Parser) (action : UInt8) : Parser × List Action :=
  ({ p.resetSeq with state := .ground },
    [.csi p.params p.intermediates p.ignore (charFrom action)])

def csiEntry (p : Parser) (b : UInt8) : Parser × List Action :=
  if isC0 b then (p, [.execute b])
  else if isCancel b then ({ p with state := .ground }, [.execute b])
  else if b = 0x1b then ({ p.resetSeq with state := .escape }, [])
  else if between 0x20 0x2f b then ({ p.pushInter b with state := .csiIntermediate }, [])
  else if between 0x30 0x39 b then ({ p.pushDigit b with state := .csiParam }, [])
  else if b = 0x3a || b = 0x3b then ({ p.finishParam with state := .csiParam }, [])
  else if between 0x3c 0x3f b then ({ p.pushInter b with state := .csiParam }, [])
  else if isFinal b then p.dispatchCsi b
  else if b = 0x7f then (p, [])
  else ({ p with ignore := true, state := .csiParam }, [])

def csiParam (p : Parser) (b : UInt8) : Parser × List Action :=
  if isC0 b then (p, [.execute b])
  else if isCancel b then ({ p with state := .ground }, [.execute b])
  else if b = 0x1b then ({ p.resetSeq with state := .escape }, [])
  else if between 0x20 0x2f b then
    ({ p.finishParam.pushInter b with state := .csiIntermediate }, [])
  else if between 0x30 0x39 b then (p.pushDigit b, [])
  else if b = 0x3a || b = 0x3b then (p.finishParam, [])
  else if between 0x3c 0x3f b then ({ p with state := .csiIgnore }, [])
  else if isFinal b then p.finishParam.dispatchCsi b
  else if b = 0x7f then (p, [])
  else ({ p with ignore := true }, [])

def csiIntermediate (p : Parser) (b : UInt8) : Parser × List Action :=
  if isC0 b then (p, [.execute b])
  else if isCancel b then ({ p with state := .ground }, [.execute b])
  else if b = 0x1b then ({ p.resetSeq with state := .escape }, [])
  else if between 0x20 0x2f b then (p.pushInter b, [])
  else if between 0x30 0x3f b then ({ p with state := .csiIgnore }, [])
  else if isFinal b then p.dispatchCsi b
  else ({ p with ignore := true, state := .csiIgnore }, [])

def csiIgnore (p : Parser) (b : UInt8) : Parser × List Action :=
  if isC0 b then (p, [.execute b])
  else if isCancel b then ({ p with state := .ground }, [.execute b])
  else if b = 0x1b then ({ p.resetSeq with state := .escape }, [])
  else if isFinal b then ({ p.resetSeq with state := .ground }, [])
  else (p, [])

def oscString (p : Parser) (b : UInt8) : Parser × List Action :=
  if b = 0x07 then ({ p.resetSeq with state := .ground }, [.osc p.osc])
  else if b = 0x1b then ({ p with state := .oscEscape }, [])
  else if isCancel b then ({ p.resetSeq with state := .ground }, [.execute b])
  else (p.pushOsc b, [])

/-- The byte after an ESC inside a string body: a backslash ends the string,
with `done` as its calls; anything else belongs to a new escape sequence. -/
def stringEscape (p : Parser) (b : UInt8) (done : List Action) : Parser × List Action :=
  if b = 0x5c then ({ p.resetSeq with state := .ground }, done)
  else ({ p.resetSeq with state := .escape }.reprocess b, [])

def oscEscape (p : Parser) (b : UInt8) : Parser × List Action := p.stringEscape b [.osc p.osc]

def dcsPassthrough (p : Parser) (b : UInt8) : Parser × List Action :=
  if b = 0x1b then ({ p with state := .dcsEscape }, [])
  else if isCancel b then ({ p.resetSeq with state := .ground }, [.execute b])
  else (p, [])

def dcsEscape (p : Parser) (b : UInt8) : Parser × List Action := p.stringEscape b []

/-- Unlike the other strings, a cancelled SOS, PM or APC body executes nothing. -/
def sos (p : Parser) (b : UInt8) : Parser × List Action :=
  if b = 0x1b then ({ p with state := .sosEscape }, [])
  else if isCancel b then ({ p.resetSeq with state := .ground }, [])
  else (p, [])

def sosEscape (p : Parser) (b : UInt8) : Parser × List Action := p.stringEscape b []

def dispatch (p : Parser) (b : UInt8) : Parser × List Action :=
  match p.state with
  | .ground => p.ground b
  | .escape => p.escape b
  | .escapeIntermediate => p.escapeIntermediate b
  | .csiEntry => p.csiEntry b
  | .csiParam => p.csiParam b
  | .csiIntermediate => p.csiIntermediate b
  | .csiIgnore => p.csiIgnore b
  | .oscString => p.oscString b
  | .oscEscape => p.oscEscape b
  | .dcsPassthrough => p.dcsPassthrough b
  | .dcsEscape => p.dcsEscape b
  | .sosPmApc => p.sos b
  | .sosEscape => p.sosEscape b

def step (p : Parser) (b : UInt8) : Parser × List Action :=
  let (p, aborted) := if p.state ≠ .ground then p.abortUtf8 else (p, [])
  let (p, acts) := p.dispatch b
  (p, aborted ++ acts)

-- ---------------------------------------------------------------------------
-- Feeding
-- ---------------------------------------------------------------------------

/-- The loop's turns on bytes put back. Two are always enough (`putback_settle`). -/
def settle : Nat → Parser → Parser × List Action
  | 0, p => (p, [])
  | n + 1, p =>
    match p.putback with
    | none => (p, [])
    | some b =>
      let (p, acts) := { p with putback := none }.step b
      let (p, more) := settle n p
      (p, acts ++ more)

/-- The feed loop: a byte put back is read before the next byte of the input. -/
def feed (p : Parser) : List UInt8 → Parser × List Action
  | [] => p.settle 2
  | b :: bytes =>
    let (p, first) := p.settle 2
    let (p, acts) := p.step b
    let (p, rest) := feed p bytes
    (p, first ++ acts ++ rest)

/-- The loop turn by turn, as the source runs it, for at most so many turns. It
stops when nothing is left and nothing is put back; `none` when it would go on. -/
def feedLoop : Nat → Parser → List UInt8 → Option (Parser × List Action)
  | 0, _, _ => none
  | n + 1, p, bytes =>
    let turn (b : UInt8) (rest : List UInt8) :=
      let (p, acts) := { p with putback := none }.step b
      (feedLoop n p rest).map fun (p, more) => (p, acts ++ more)
    match p.putback, bytes with
    | some b, rest => turn b rest
    | none, b :: rest => turn b rest
    | none, [] => some (p, [])

end Parser

end Rill.Vt
