/-
The architecture an image is made for, as its machine code tells it. Machine codes other than the
three known ones leave the platform unresolved, which is no error: such an image has no pointer
width and no calling convention of its own.
-/

namespace TeImage

/-- How functions are called on a platform. -/
inductive CallingConvention where
  | cdecl
  | win64
  | aapcs64
  deriving DecidableEq, Repr

namespace CallingConvention

/-- The name used in output for people. -/
def display : CallingConvention → String
  | cdecl => "cdecl"
  | win64 => "win64"
  | aapcs64 => "aapcs64"

/-- The name used in JSON text. -/
def tag : CallingConvention → String
  | cdecl => "Cdecl"
  | win64 => "Win64"
  | aapcs64 => "Aapcs64"

end CallingConvention

inductive Platform where
  | x86
  | x86_64
  | aarch64
  | unresolved
  deriving DecidableEq, Repr

namespace Platform

/-- The platform of a COFF machine code. -/
def ofMachine (machine : UInt16) : Platform :=
  if machine = 0x014C then x86
  else if machine = 0x8664 then x86_64
  else if machine = 0xAA64 then aarch64
  else unresolved

/-- The platform of a machine code that was read as a signed number: the bit pattern decides. -/
def ofSignedMachine (machine : Int16) : Platform := ofMachine machine.toUInt16

/-- The name of the platform's own directory of type definitions. -/
def name? : Platform → Option String
  | x86 => some "efi-x86"
  | x86_64 => some "efi-x86_64"
  | aarch64 => some "efi-aarch64"
  | unresolved => none

/-- The name used in output for people. -/
def display (p : Platform) : String := p.name?.getD "unresolved"

/-- The name used in JSON text. -/
def tag : Platform → String
  | x86 => "X86"
  | x86_64 => "X86_64"
  | aarch64 => "AArch64"
  | unresolved => "Unresolved"

def isResolved (p : Platform) : Bool := p.name?.isSome

/-- Width of a pointer in bytes. -/
def addressSize? : Platform → Option UInt64
  | x86 => some 4
  | x86_64 => some 8
  | aarch64 => some 8
  | unresolved => none

/-- Width of a pointer in bytes, eight where it is not known. -/
def pointerSize (p : Platform) : UInt64 := p.addressSize?.getD 8

def is64Bit (p : Platform) : Bool := p.addressSize? = some 8

def callingConvention? : Platform → Option CallingConvention
  | x86 => some .cdecl
  | x86_64 => some .win64
  | aarch64 => some .aapcs64
  | unresolved => none

end Platform

end TeImage
