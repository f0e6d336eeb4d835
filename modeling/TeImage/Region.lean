/-
Memory regions: ranges of addresses that are backed by a range of the file. Addresses wrap around
at 2^64, also the end of a region; `contains` compares with the wrapped end.
-/
import TeImage.Text.Numeral

namespace TeImage

/-- What may be done with the bytes of a region, as a set of bits. Bits without a meaning are
kept. -/
structure Access where
  bits : UInt32
  deriving DecidableEq, Repr

namespace Access

def read : Access := ⟨1⟩
def write : Access := ⟨2⟩
def execute : Access := ⟨4⟩
def all : Access := ⟨7⟩

/-- Every bit of `b` is set in `a`. -/
def includes (a b : Access) : Bool := a.bits &&& b.bits = b.bits

/-- The names of the known permissions, in the order in which they are listed. -/
def named : List (Access × String) := [(read, "READ"), (write, "WRITE"), (execute, "EXECUTE")]

/-- The permissions by name, then the bits without a name as one number. -/
def display (a : Access) : String :=
  let names := (named.filter fun p => a.includes p.1).map (·.2)
  let unnamed := a.bits &&& ~~~all.bits
  " | ".intercalate (names ++ if unnamed = 0 then [] else [Text.hex unnamed.toNat])

/-- Three letters, each a dash where the permission is missing. -/
def letters (a : Access) : String :=
  String.ofList <| [(read, 'r'), (write, 'w'), (execute, 'x')].map fun p =>
    if a.includes p.1 then p.2 else '-'

end Access

structure Region where
  start : UInt64
  size : UInt64
  fileOffset : UInt64
  fileSize : UInt64
  access : Access
  deriving DecidableEq, Repr

namespace Region

/-- The address behind the last one. -/
def stop (r : Region) : UInt64 := r.start + r.size

def contains (r : Region) (address : UInt64) : Bool := r.start ≤ address && address < r.stop

end Region

end TeImage
