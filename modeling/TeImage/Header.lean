/-
The 40-byte header at the start of a Terse Executable, and the addresses that follow from it.

A Terse Executable is a PE/COFF image whose leading headers were cut off and replaced by this
record. `strippedSize` says how many bytes were cut, so `headerOffset` is how far the record lies
behind the place where the uncut image began, and `adjustedBase` is where it lies in memory. The
entry point and the sections are placed from the plain image base all the same.
-/
import TeImage.Codec

namespace TeImage

/-- Where a table of the image lies, relative to the image base. -/
structure DataDirectory where
  virtualAddress : UInt32
  size : UInt32
  deriving DecidableEq, Repr

namespace DataDirectory

def decoder : Decoder DataDirectory := do
  let virtualAddress ← .u32
  let size ← .u32
  return { virtualAddress, size }

/-- The record as it is written, field by field. -/
def pieces (d : DataDirectory) : List Bytes :=
  [littleEndian 4 d.virtualAddress.toNat, littleEndian 4 d.size.toNat]

def encode (d : DataDirectory) : Bytes := d.pieces.flatten

def format : RecordFormat DataDirectory := { size := 8, decoder, pieces }

end DataDirectory

/-- The header record of a Terse Executable. -/
structure Header where
  /-- `VZ` in every valid image. -/
  signature : Block 2
  /-- COFF machine code. -/
  machine : UInt16
  sectionCount : UInt8
  subsystem : UInt8
  /-- Bytes cut off from the front of the PE/COFF image, this record's own size included. -/
  strippedSize : UInt16
  /-- Entry point, relative to the image base. -/
  entryAddress : UInt32
  /-- Start of the code, relative to the image base. -/
  codeAddress : UInt32
  /-- Preferred load address. -/
  imageBase : UInt64
  relocations : DataDirectory
  debug : DataDirectory
  deriving DecidableEq, Repr

namespace Header

/-- Length of the record in bytes. -/
def size : Nat := 40

/-- Length of one record of the section table that follows the header. -/
def sectionRecordSize : Nat := 40

/-- The two bytes that mark a Terse Executable, `VZ`. -/
def magic : Block 2 := ⟨[0x56, 0x5A], rfl⟩

def decoder : Decoder Header := do
  let signature ← .bytes 2
  let machine ← .u16
  let sectionCount ← .u8
  let subsystem ← .u8
  let strippedSize ← .u16
  let entryAddress ← .u32
  let codeAddress ← .u32
  let imageBase ← .u64
  let relocations ← DataDirectory.decoder
  let debug ← DataDirectory.decoder
  return {
    signature, machine, sectionCount, subsystem, strippedSize, entryAddress, codeAddress,
    imageBase, relocations, debug }

/-- The record as it is written, field by field. -/
def pieces (h : Header) : List Bytes :=
  [h.signature.1, littleEndian 2 h.machine.toNat, littleEndian 1 h.sectionCount.toNat,
    littleEndian 1 h.subsystem.toNat, littleEndian 2 h.strippedSize.toNat,
    littleEndian 4 h.entryAddress.toNat, littleEndian 4 h.codeAddress.toNat,
    littleEndian 8 h.imageBase.toNat] ++ h.relocations.pieces ++ h.debug.pieces

def encode (h : Header) : Bytes := h.pieces.flatten

def format : RecordFormat Header := { size, decoder, pieces }

/-- Decodes the header at the start of a byte string, whatever its signature. -/
def decode? (data : Bytes) : Option Header := (decoder.run data).map (·.1)

/-- How far the header lies behind the start of the uncut image. Negative if the image claims to
have lost less than the header itself takes. -/
def headerOffset (h : Header) : Int := h.strippedSize.toNat - size

/-- The address of the header in memory. -/
def adjustedBase (h : Header) : UInt64 := h.imageBase + UInt64.ofInt h.headerOffset

/-- The address of the entry point, from the plain image base. -/
def entryPoint (h : Header) : UInt64 := h.imageBase + h.entryAddress.toUInt64

/-- Bytes taken by the header and its section table. -/
def headersSize (h : Header) : Nat := size + h.sectionCount.toNat * sectionRecordSize

end Header

end TeImage
