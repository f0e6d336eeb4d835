/-
The 40-byte records of the section table.
-/
import TeImage.Bytes.Utf8
import TeImage.Codec
import TeImage.Text.Numeral

namespace TeImage

/-- What a section's bytes are taken for. -/
inductive SectionSemantics where
  | readOnlyCode
  | readOnlyData
  | readWriteData
  deriving DecidableEq, Repr

namespace SectionSemantics

/-- The name used in JSON text. -/
def tag : SectionSemantics → String
  | readOnlyCode => "ReadOnlyCode"
  | readOnlyData => "ReadOnlyData"
  | readWriteData => "ReadWriteData"

/-- The name used in tables. -/
def display : SectionSemantics → String
  | readOnlyCode => "code"
  | readOnlyData => "rodata"
  | readWriteData => "data"

end SectionSemantics

/-- The flag word of a section record. -/
structure Characteristics where
  bits : UInt32
  deriving DecidableEq, Repr

namespace Characteristics

def code : UInt32 := 0x00000020
def initializedData : UInt32 := 0x00000040
def uninitializedData : UInt32 := 0x00000080
def execute : UInt32 := 0x20000000
def read : UInt32 := 0x40000000
def write : UInt32 := 0x80000000

/-- At least one bit of `mask` is set. -/
def hasAny (c : Characteristics) (mask : UInt32) : Bool := c.bits &&& mask ≠ 0

/-- The contents and the permissions in short, such as `CODE R-X`. -/
def display (c : Characteristics) : String :=
  let kind :=
    if c.hasAny code then "CODE"
    else if c.hasAny initializedData then "DATA"
    else if c.hasAny uninitializedData then "BSS"
    else "-"
  let letters := [(read, 'R'), (write, 'W'), (execute, 'X')].map fun p =>
    if c.hasAny p.1 then p.2 else '-'
  kind ++ " " ++ String.ofList letters

/-- What the flags ask for. -/
def semantics (c : Characteristics) : SectionSemantics :=
  if c.hasAny (code ||| execute) then .readOnlyCode
  else if c.hasAny (write ||| uninitializedData) then .readWriteData
  else .readOnlyData

end Characteristics

/-- One record of the section table. -/
structure SectionRecord where
  /-- Filled up with zero bytes; a full one has no terminator. -/
  name : Block 8
  /-- Size in memory in an image, physical address in an object file. -/
  misc : UInt32
  virtualAddress : UInt32
  rawDataSize : UInt32
  rawDataPointer : UInt32
  relocationsPointer : UInt32
  lineNumbersPointer : UInt32
  relocationCount : UInt16
  lineNumberCount : UInt16
  characteristics : Characteristics
  deriving DecidableEq, Repr

namespace SectionRecord

def decoder : Decoder SectionRecord := do
  let name ← .bytes 8
  let misc ← .u32
  let virtualAddress ← .u32
  let rawDataSize ← .u32
  let rawDataPointer ← .u32
  let relocationsPointer ← .u32
  let lineNumbersPointer ← .u32
  let relocationCount ← .u16
  let lineNumberCount ← .u16
  let characteristics ← .u32
  return {
    name, misc, virtualAddress, rawDataSize, rawDataPointer, relocationsPointer,
    lineNumbersPointer, relocationCount, lineNumberCount, characteristics := ⟨characteristics⟩ }

/-- The record as it is written, field by field. -/
def pieces (r : SectionRecord) : List Bytes :=
  [r.name.1, littleEndian 4 r.misc.toNat, littleEndian 4 r.virtualAddress.toNat,
    littleEndian 4 r.rawDataSize.toNat, littleEndian 4 r.rawDataPointer.toNat,
    littleEndian 4 r.relocationsPointer.toNat, littleEndian 4 r.lineNumbersPointer.toNat,
    littleEndian 2 r.relocationCount.toNat, littleEndian 2 r.lineNumberCount.toNat,
    littleEndian 4 r.characteristics.bits.toNat]

def encode (r : SectionRecord) : Bytes := r.pieces.flatten

def format : RecordFormat SectionRecord := { size := 40, decoder, pieces }

/-- The name's bytes without the zero bytes at its end. -/
def nameBytes (r : SectionRecord) : Bytes := (r.name.1.reverse.dropWhile (· = 0)).reverse

def nameText (r : SectionRecord) : String := Utf8.decodeLossy r.nameBytes

end SectionRecord

end TeImage
