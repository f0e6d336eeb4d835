/-
The two regions of an image. The header and its section table are mapped read-only, all that
follows as one region that may be read, written and executed: splitting it by what the sections
declare would keep a linear disassembly from crossing a data section.
-/
import TeImage.Header
import TeImage.LoadError
import TeImage.Log
import TeImage.Region

namespace TeImage

structure Layout where
  headerOffset : Int
  /-- The header and the section table. -/
  headerRegion : Region
  /-- Everything behind the section table. -/
  codeRegion : Region
  deriving DecidableEq, Repr

namespace Layout

/-- Maps a file of `length` bytes: the header at its adjusted base, the rest right behind it. -/
def compute (h : Header) (length : Nat) : Except LoadError Layout :=
  if length < h.headersSize then
    .error (.truncatedSectionTable h.sectionCount.toNat h.headersSize length)
  else
    let headersSize := UInt64.ofNat h.headersSize
    let codeSize := UInt64.ofNat (length - h.headersSize)
    .ok {
      headerOffset := h.headerOffset
      headerRegion := {
        start := h.adjustedBase
        size := headersSize
        fileOffset := 0
        fileSize := headersSize
        access := .read }
      codeRegion := {
        start := h.adjustedBase + headersSize
        size := codeSize
        fileOffset := headersSize
        fileSize := codeSize
        access := .all } }

def regions (l : Layout) : List Region := [l.headerRegion, l.codeRegion]

def logLine (l : Layout) : LogLine where
  level := .debug
  channel := .layout
  message :=
    let span (r : Region) := Text.hex r.start.toNat ++ "+" ++ Text.hex r.size.toNat
    s!"header region {span l.headerRegion}, code region {span l.codeRegion}"
      ++ s!" (header_ofs {l.headerOffset})"

end Layout

end TeImage
