/-
Function signatures, and the one signature that every module's entry point has.
-/
import TeImage.Platform
import TeImage.Text.Numeral

namespace TeImage

structure Parameter where
  type : String
  name : String
  deriving DecidableEq, Repr

structure FunctionSignature where
  name : String
  start : UInt64
  returnType : String
  parameters : List Parameter
  callingConvention? : Option CallingConvention
  deriving DecidableEq, Repr

/-- The name of a module's entry point. -/
def entryPointName : String := "ModuleEntryPoint"

/-- The stars of a pointer type stand next to the name, any other type is set off by a blank. -/
def Parameter.display (p : Parameter) : String :=
  if p.type.toList.getLast? = some '*' then p.type ++ p.name else p.type ++ " " ++ p.name

namespace FunctionSignature

/-- The signature of a module's entry point. -/
def moduleEntryPoint (start : UInt64) (platform : Platform) : FunctionSignature where
  name := entryPointName
  start := start
  returnType := "EFI_STATUS"
  parameters := [⟨"EFI_PEI_FILE_HANDLE", "FileHandle"⟩, ⟨"EFI_PEI_SERVICES **", "PeiServices"⟩]
  callingConvention? := platform.callingConvention?

/-- The signature as a prototype. -/
def display (s : FunctionSignature) : String :=
  let parameters := ", ".intercalate (s.parameters.map Parameter.display)
  s!"{s.returnType} {s.name}({parameters})"

end FunctionSignature

end TeImage
