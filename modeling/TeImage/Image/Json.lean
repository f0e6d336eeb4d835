/-
Images and what they are made of as JSON values. Maps are objects with their keys in order,
addresses as keys in decimal; a byte string is an array of numbers.
-/
import TeImage.Image

namespace TeImage

def Bytes.toJson (bs : Bytes) : Json := .array (bs.map fun b => .nat b.toNat)

namespace DataDirectory

def toJson (d : DataDirectory) : Json := .object [
  ("virtual_address", .nat d.virtualAddress.toNat),
  ("size", .nat d.size.toNat)]

end DataDirectory

namespace Header

def toJson (h : Header) : Json := .object [
  ("signature", Bytes.toJson h.signature.1),
  ("machine", .nat h.machine.toNat),
  ("number_of_sections", .nat h.sectionCount.toNat),
  ("subsystem", .nat h.subsystem.toNat),
  ("stripped_size", .nat h.strippedSize.toNat),
  ("address_of_entry_point", .nat h.entryAddress.toNat),
  ("base_of_code", .nat h.codeAddress.toNat),
  ("image_base", .nat h.imageBase.toNat),
  ("data_directory", .array [h.relocations.toJson, h.debug.toJson])]

end Header

namespace SectionRecord

def toJson (r : SectionRecord) : Json := .object [
  ("name", Bytes.toJson r.name.1),
  ("misc", .nat r.misc.toNat),
  ("virtual_address", .nat r.virtualAddress.toNat),
  ("size_of_raw_data", .nat r.rawDataSize.toNat),
  ("pointer_to_raw_data", .nat r.rawDataPointer.toNat),
  ("pointer_to_relocations", .nat r.relocationsPointer.toNat),
  ("pointer_to_linenumbers", .nat r.lineNumbersPointer.toNat),
  ("number_of_relocations", .nat r.relocationCount.toNat),
  ("number_of_linenumbers", .nat r.lineNumberCount.toNat),
  ("characteristics", .nat r.characteristics.bits.toNat)]

end SectionRecord

namespace ImageSection

def toJson (s : ImageSection) : Json := .object [
  ("name", .string s.name),
  ("vma", .nat s.address.toNat),
  ("size", .nat s.size.toNat),
  ("semantics", .string s.semantics.tag),
  ("header", s.record.toJson)]

end ImageSection

namespace Region

def toJson (r : Region) : Json := .object [
  ("start", .nat r.start.toNat),
  ("size", .nat r.size.toNat),
  ("file_offset", .nat r.fileOffset.toNat),
  ("file_size", .nat r.fileSize.toNat),
  ("flags", .string r.access.display)]

end Region

namespace Layout

def toJson (l : Layout) : Json := .object [
  ("header_ofs", .number l.headerOffset),
  ("header_region", l.headerRegion.toJson),
  ("code_region", l.codeRegion.toJson)]

end Layout

namespace Symbol

def toJson (s : Symbol) : Json := .object [
  ("kind", .string s.kind.tag),
  ("address", .nat s.address.toNat),
  ("name", .string s.name)]

end Symbol

namespace DataVariable

def toJson (v : DataVariable) : Json := .object [
  ("address", .nat v.address.toNat),
  ("type_name", .string v.typeName)]

end DataVariable

namespace Parameter

def toJson (p : Parameter) : Json := .object [
  ("ty", .string p.type),
  ("name", .string p.name)]

end Parameter

namespace FunctionSignature

def toJson (s : FunctionSignature) : Json := .object [
  ("function_identifier", .string s.name),
  ("start", .nat s.start.toNat),
  ("return_type", .string s.returnType),
  ("parameters", .array (s.parameters.map Parameter.toJson)),
  ("calling_convention", .ofOption (fun c => .string c.tag) s.callingConvention?)]

end FunctionSignature

namespace Image

/-- An image as JSON, with its three maps as they are given. -/
def jsonWith (i : Image) (types dataVariables functions : Json) : Json := .object [
  ("platform", .string i.platform.tag),
  ("regions", .array (i.regions.map Region.toJson)),
  ("sections", .array (i.sections.map ImageSection.toJson)),
  ("types", types),
  ("data_vars", dataVariables),
  ("symbols", .array (i.symbols.map Symbol.toJson)),
  ("entry_point", .ofOption (fun a => .nat a.toNat) i.entryPoint?),
  ("functions", functions)]

def toJson (i : Image) : Json := i.jsonWith
  (.object (i.types.toList.map fun p => (p.1, p.2.toJson)))
  (.object (i.dataVariables.toList.map fun p => (toString p.1, p.2.toJson)))
  (.object (i.functions.toList.map fun p => (toString p.1, p.2.toJson)))

/-- An image as JSON, if the keys of its maps can be names. -/
def serialize (i : Image) : Except Json.KeyFault Json := do
  return i.jsonWith
    (← Json.ofMap (i.types.toList.map fun p => (.string p.1, p.2.toJson)))
    (← Json.ofMap (i.dataVariables.toList.map fun p => (.nat p.1.toNat, p.2.toJson)))
    (← Json.ofMap (i.functions.toList.map fun p => (.nat p.1.toNat, p.2.toJson)))

end Image

end TeImage
