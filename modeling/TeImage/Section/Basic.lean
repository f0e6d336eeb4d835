/-
The sections of an image and the table they are read from.

Sections lie at the plain image base plus their own address, while the header lies at the adjusted
base. The two disagree in every image that lost more than the header's own size, and tools rely on
these very addresses. Every section is loaded as code, so that a linear disassembly walks through
it; what it declares itself stays in its record.
-/
import TeImage.Header
import TeImage.LoadError
import TeImage.Log
import TeImage.Section.Record

namespace TeImage

structure ImageSection where
  name : String
  address : UInt64
  size : UInt64
  semantics : SectionSemantics
  record : SectionRecord
  deriving DecidableEq, Repr

namespace ImageSection

/-- The section of a record in an image at `imageBase`. -/
def ofRecord (r : SectionRecord) (imageBase : UInt64) : ImageSection where
  name := r.nameText
  address := imageBase + r.virtualAddress.toUInt64
  size := r.misc.toUInt64
  semantics := .readOnlyCode
  record := r

/-- The address behind the last one. -/
def stop (s : ImageSection) : UInt64 := s.address + s.size

/-- The `count` records that follow the header. -/
def tableDecoder (count : Nat) : Decoder (List SectionRecord) := do
  let _ ← Decoder.bytes Header.size
  Decoder.times count SectionRecord.decoder

/-- The sections that the table in `data` lists, as many as `h` announces. -/
def table (data : Bytes) (h : Header) : Except LoadError (List ImageSection) :=
  if data.length < h.headersSize then
    .error (.truncatedSectionTable h.sectionCount.toNat h.headersSize data.length)
  else
    match (tableDecoder h.sectionCount.toNat).run data with
    | some (records, _) => .ok (records.map (ofRecord · h.imageBase))
    | none => .error .headerCutOff

def logLine (s : ImageSection) : LogLine where
  level := .debug
  channel := .sections
  message :=
    s!"section {Text.padRight 8 s.name} vma {Text.hex s.address.toNat}"
      ++ s!" size {Text.hex s.size.toNat} ({s.record.characteristics.display})"

end ImageSection

end TeImage
