/-
The result of loading, as it is kept in memory.

An image takes up registrations one by one: regions and sections are added at the end, a type, a
variable or a function replaces the one of the same name or address, a symbol is added unless the
very same one is there, and platform and entry point are replaced.
-/
import Std.Data.ExtTreeMap
import TeImage.Registration
import TeImage.Types.Size

namespace TeImage

structure Image where
  platform : Platform
  regions : List Region
  sections : List ImageSection
  /-- By name. -/
  types : Std.ExtTreeMap String TypeDef compare
  /-- By address. -/
  dataVariables : Std.ExtTreeMap UInt64 DataVariable compare
  symbols : List Symbol
  entryPoint? : Option UInt64
  /-- By start address. -/
  functions : Std.ExtTreeMap UInt64 FunctionSignature compare

namespace Image

/-- The image that nothing was loaded into. -/
def empty : Image where
  platform := .unresolved
  regions := []
  sections := []
  types := ∅
  dataVariables := ∅
  symbols := []
  entryPoint? := none
  functions := ∅

/-- Takes up one registration. -/
def register (i : Image) : Registration → Image
  | .platform p => { i with platform := p }
  | .region r => { i with regions := i.regions ++ [r] }
  | .imageSection s => { i with sections := i.sections ++ [s] }
  | .type d => { i with types := i.types.insert d.name d }
  | .dataVariable v => { i with dataVariables := i.dataVariables.insert v.address v }
  | .symbol s => { i with symbols := if s ∈ i.symbols then i.symbols else i.symbols ++ [s] }
  | .entryPoint a => { i with entryPoint? := some a }
  | .functionType s => { i with functions := i.functions.insert s.start s }

instance : Sink Image := ⟨register⟩

def typeNamed? (i : Image) (name : String) : Option TypeDef := i.types[name]?

/-- The first symbol of that name. -/
def symbolNamed? (i : Image) (name : String) : Option Symbol := i.symbols.find? (·.name = name)

/-- The signature of the function at the entry point. -/
def entrySignature? (i : Image) : Option FunctionSignature := do
  i.functions[← i.entryPoint?]?

/-- The size of a registered type, with pointers as wide as the platform has them. -/
def typeSize? (i : Image) (name : String) : Option UInt64 := do
  (← i.typeNamed? name).size i.platform.pointerSize i.typeNamed?

end Image

end TeImage
