/-!
# Byte history

The last bytes of a stream, with the stream offsets of both ends.
-/

namespace Rill.Kernel

/-- The bound of a saturating u64. -/
def u64Max : Nat := 18446744073709551615

structure ByteRing where
  data : List UInt8
  cap : Nat
  retainedBase : Nat
  stop : Nat
  deriving DecidableEq, Repr

namespace ByteRing

def new (cap : Nat) : ByteRing := ⟨[], max cap 1, 0, 0⟩

/-- The oldest bytes make room for the new ones. -/
def append (r : ByteRing) (bytes : List UInt8) : ByteRing :=
  if bytes.isEmpty then r
  else
    let stop := min (r.stop + bytes.length) u64Max
    let data :=
      if bytes.length ≥ r.cap then bytes.drop (bytes.length - r.cap)
      else r.data.drop (r.data.length + bytes.length - r.cap) ++ bytes
    { r with data, stop, retainedBase := stop - data.length }

def snapshot (r : ByteRing) : List UInt8 := r.data

end ByteRing

end Rill.Kernel
