/-
What is said about the header records of an image: their types, and a typed and named variable for
the header and for each record of the section table.
-/
import TeImage.Layout
import TeImage.Platform
import TeImage.Types.Builtin
import TeImage.Types.Source

namespace TeImage

inductive SymbolKind where
  | data
  | function
  deriving DecidableEq, Repr

/-- The name used in JSON text. -/
def SymbolKind.tag : SymbolKind → String
  | data => "Data"
  | function => "Function"

/-- The name used in tables. -/
def SymbolKind.display : SymbolKind → String
  | data => "data"
  | function => "func"

structure Symbol where
  kind : SymbolKind
  address : UInt64
  name : String
  deriving DecidableEq, Repr

/-- A value of a named type at an address. -/
structure DataVariable where
  address : UInt64
  typeName : String
  deriving DecidableEq, Repr

/-- A header record in memory: where it lies, its type and its name. -/
structure BoundRecord where
  address : UInt64
  typeName : String
  label : String
  deriving DecidableEq, Repr

namespace BoundRecord

def dataVariable (b : BoundRecord) : DataVariable := ⟨b.address, b.typeName⟩

def symbol (b : BoundRecord) : Symbol := ⟨.data, b.address, b.label⟩

def logLine (b : BoundRecord) : LogLine where
  level := .debug
  channel := .annotations
  message := s!"{b.label} ({b.typeName}) at {Text.hex b.address.toNat}"

/-- The header at `base`. -/
def header (base : UInt64) : BoundRecord := ⟨base, Builtin.headerName, "gTEImageHdr"⟩

/-- The section record with the given index, behind a header at `base`. It is named for its place
in the section table. -/
def sectionRecord (base : UInt64) (index : Nat) : BoundRecord where
  address := base + UInt64.ofNat (Header.size + index * Header.sectionRecordSize)
  typeName := Builtin.sectionRecordName
  label := s!"gSectionHdr{index * Header.sectionRecordSize}"

/-- The header and all section records. -/
def all (base : UInt64) (sectionCount : Nat) : List BoundRecord :=
  header base :: (List.range sectionCount).map (sectionRecord base)

end BoundRecord

structure Annotations where
  types : List TypeDef
  dataVariables : List DataVariable
  symbols : List Symbol

namespace Annotations

/-- The definitions of a source. If it gives none, that is logged and nothing else comes of it. -/
def auxiliaryTypes (source : TypeSource) (platform : Platform) : Logged (List TypeDef) := do
  match ← source.definitions platform with
  | .ok defs =>
    if defs.isEmpty then return []
    else
      Logged.write [⟨.info, .annotations,
        s!"imported {defs.length} auxiliary type(s) for {platform.display}"⟩]
      return defs
  | .error reasons =>
    let chain := ": ".intercalate reasons
    Logged.write [⟨.warn, .annotations,
      s!"auxiliary types unavailable for {platform.display}: {chain}"⟩]
    return []

/-- The annotations of an image: the built-in types before those of the source. -/
def build (h : Header) (l : Layout) (platform : Platform) (source : TypeSource) :
    Logged Annotations := do
  let records := BoundRecord.all l.headerRegion.start h.sectionCount.toNat
  Logged.write (records.map BoundRecord.logLine)
  let extra ← auxiliaryTypes source platform
  return {
    types := Builtin.all ++ extra
    dataVariables := records.map BoundRecord.dataVariable
    symbols := records.map BoundRecord.symbol }

end Annotations

end TeImage
