/-
What each command prints about an image.
-/
import TeImage.CommandLine.Arguments
import TeImage.Image.Json
import TeImage.ImageFile
import TeImage.Text.Table

namespace TeImage.CommandLine

/-! ## Emphasis -/

/-- How a text stands out. -/
inductive Emphasis where
  | bold
  | boldGreen

/-- `s` between control sequences, where these are wanted. -/
def emphasize (colored : Bool) (e : Emphasis) (s : String) : String :=
  if colored then
    let code := match e with
      | .bold => "1"
      | .boldGreen => "1;32"
    s!"\x1b[{code}m{s}\x1b[0m"
  else s

/-- Control sequences are wanted if the environment asks for them; output to a terminal plays no
part. -/
def wantsColor (environment : Environment) : Bool := environment.forceColor?.any (· ≠ "0")

/-! ## Header -/

/-- The short name of the file format. -/
def formatName : String := "TE"

def word (n : UInt64) : String := Text.hex n.toNat

def headerJson (h : Header) (platform : Platform) : Json := .object [
  ("format", .string formatName),
  ("machine", .string (Text.hexPadded 4 h.machine.toNat)),
  ("platform", .string platform.display),
  ("number_of_sections", .nat h.sectionCount.toNat),
  ("subsystem", .nat h.subsystem.toNat),
  ("stripped_size", .nat h.strippedSize.toNat),
  ("header_ofs", .number h.headerOffset),
  ("address_of_entry_point", .string (Text.hex h.entryAddress.toNat)),
  ("base_of_code", .string (Text.hex h.codeAddress.toNat)),
  ("image_base", .string (word h.imageBase)),
  ("entry_point", .string (word h.entryPoint)),
  ("headers_size", .nat h.headersSize),
  ("is_64", .bool (Platform.ofMachine h.machine).is64Bit)]

/-- A name and a value in two columns. -/
def entryLine (name value : String) : String := Text.padRight 24 name ++ " " ++ value

def directoryText (d : DataDirectory) : String :=
  s!"{Text.hex d.virtualAddress.toNat} ({Text.hex d.size.toNat} bytes)"

def headerLines (h : Header) (platform : Platform) : List String :=
  let bits := if (Platform.ofMachine h.machine).is64Bit then "64" else "32"
  [ entryLine "Machine" s!"{Text.hexPadded 4 h.machine.toNat} ({bits}-bit)",
    entryLine "Platform" platform.display,
    entryLine "Sections" (toString h.sectionCount.toNat),
    entryLine "Subsystem" (toString h.subsystem.toNat),
    entryLine "Stripped size" (Text.hex h.strippedSize.toNat),
    entryLine "Header offset" (toString h.headerOffset),
    entryLine "Entry RVA" (Text.hex h.entryAddress.toNat),
    entryLine "Base of code" (Text.hex h.codeAddress.toNat),
    entryLine "Image base" (word h.imageBase),
    entryLine "Entry point" (word h.entryPoint),
    entryLine "Headers size" (Text.hex h.headersSize),
    entryLine "Relocations directory" (directoryText h.relocations),
    entryLine "Debug directory" (directoryText h.debug) ]

/-! ## Tables -/

def regionTable (i : Image) : Text.Table where
  heading := ["Start", "Size", "Offset", "Perm"]
  rows := i.regions.map fun r => [word r.start, word r.size, word r.fileOffset, r.access.letters]

def sectionTable (i : Image) : Text.Table where
  heading :=
    ["Section", "VMA", "Size", "Loaded as", "Declared", "Raw ptr", "Raw size", "Flags"]
  rows := i.sections.map fun s => [
    s.name, word s.address, word s.size, s.semantics.display,
    s.record.characteristics.semantics.display, Text.hex s.record.rawDataPointer.toNat,
    Text.hex s.record.rawDataSize.toNat, s.record.characteristics.display]

/-- A symbol is listed with the type of the variable at its address, if there is one. -/
def symbolTable (i : Image) : Text.Table where
  heading := ["Address", "Kind", "Name", "Type"]
  rows := i.symbols.map fun s => [
    word s.address, s.kind.display, s.name,
    ((i.dataVariables[s.address]?).map (·.typeName)).getD ""]

def typeTable (i : Image) : Text.Table where
  heading := ["Type", "Kind", "Size"]
  rows := i.types.toList.map fun (_, d) => [
    d.name, d.kind.display, ((i.typeSize? d.name).map toString).getD "?"]

/-- A title and a table. -/
def tableLines (colored : Bool) (title : String) (t : Text.Table) : List String :=
  emphasize colored .bold title :: t.render.map String.ofList

/-! ## Commands -/

def entryLines (f : ImageFile) (i : Image) : List String :=
  match i.entrySignature? with
  | none => [s!"Entry point: {word f.entryPoint}"]
  | some signature =>
    let convention := match signature.callingConvention? with
      | none => []
      | some c => [s!"Convention:  {c.display}"]
    [s!"Entry point: {word signature.start}", s!"Prototype:   {signature.display}"] ++ convention

/-- The lines that a command prints about a file that was loaded as `i`. -/
def Command.report (c : Command) (colored : Bool) (f : ImageFile) (i : Image) :
    Except Json.KeyFault (List String) :=
  match c with
  | info true => .ok [(headerJson f.header i.platform).pretty]
  | info false =>
    let head := emphasize colored .boldGreen (formatName ++ " image")
    .ok (s!"{head} {f.path}" :: headerLines f.header i.platform)
  | entry => .ok (entryLines f i)
  | regions => .ok (tableLines colored "Regions" (regionTable i))
  | sections =>
    .ok <| if i.sections.isEmpty then ["No sections in section table."]
      else tableLines colored "Sections" (sectionTable i)
  | symbols => .ok (tableLines colored "Symbols" (symbolTable i))
  | types => .ok (tableLines colored "Types" (typeTable i))
  | dump => do return [(← i.serialize).pretty]

end TeImage.CommandLine
