/-
The definitions that describe the header records themselves.
-/
import TeImage.Types.Basic

namespace TeImage.Builtin

def dataDirectoryName : String := "EFI_IMAGE_DATA_DIRECTORY"
def headerName : String := "EFI_TE_IMAGE_HEADER"
def sectionRecordName : String := "EFI_IMAGE_SECTION_HEADER"

def dataDirectory : TypeDef where
  name := dataDirectoryName
  kind := .struct [⟨"VirtualAddress", .u32⟩, ⟨"Size", .u32⟩]

def header : TypeDef where
  name := headerName
  kind := .struct [
    ⟨"Signature", .array .char 2⟩,
    ⟨"Machine", .u16⟩,
    ⟨"NumberOfSections", .u8⟩,
    ⟨"Subsystem", .u8⟩,
    ⟨"StrippedSize", .u16⟩,
    ⟨"AddressOfEntryPoint", .u32⟩,
    ⟨"BaseOfCode", .u32⟩,
    ⟨"ImageBase", .u64⟩,
    ⟨"DataDirectory", .array (.named dataDirectoryName) 2⟩]

def sectionRecord : TypeDef where
  name := sectionRecordName
  kind := .struct [
    ⟨"Name", .array .char 8⟩,
    ⟨"Misc", .union [⟨"PhysicalAddress", .u32⟩, ⟨"VirtualSize", .u32⟩]⟩,
    ⟨"VirtualAddress", .u32⟩,
    ⟨"SizeOfRawData", .u32⟩,
    ⟨"PointerToRawData", .u32⟩,
    ⟨"PointerToRelocations", .u32⟩,
    ⟨"PointerToLinenumbers", .u32⟩,
    ⟨"NumberOfRelocations", .u16⟩,
    ⟨"NumberOfLinenumbers", .u16⟩,
    ⟨"Characteristics", .u32⟩]

/-- All of them, each behind those it mentions. -/
def all : List TypeDef := [dataDirectory, header, sectionRecord]

end TeImage.Builtin
