/-
Why a byte string is not a usable Terse Executable.
-/

namespace TeImage

inductive LoadError where
  /-- Shorter than a header, or not marked as a Terse Executable. -/
  | notTerse
  /-- The data ends inside the header or a section record. -/
  | headerCutOff
  /-- The header announces more section records than the data holds. -/
  | truncatedSectionTable (sections needed available : Nat)
  deriving DecidableEq, Repr

def LoadError.message : LoadError → String
  | notTerse => "not a TE image"
  | headerCutOff => "unexpected end of data while reading the TE header"
  | truncatedSectionTable sections needed available =>
    s!"truncated section table: {sections} section(s) need {needed} bytes, buffer has {available}"

end TeImage
