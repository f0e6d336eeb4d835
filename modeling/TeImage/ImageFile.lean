/-
Terse Executables as files: a path, the bytes found there, and their header.
-/
import TeImage.FileTree
import TeImage.Load

namespace TeImage

structure ImageFile where
  path : String
  data : Bytes
  header : Header

/-- Why a path does not lead to a Terse Executable. -/
inductive FileError where
  /-- There is nothing to be opened. -/
  | opening (path : String) (fault : FileFault)
  /-- It was opened, but gives no bytes. -/
  | reading (fault : FileFault)
  /-- It was read. -/
  | content (error : LoadError)
  deriving DecidableEq, Repr

namespace FileError

/-- What went wrong, the context first and the cause behind it. -/
def chain : FileError → List String
  | opening path fault => [s!"opening {path}", fault.message]
  | reading fault => [fault.message]
  | content error => [error.message]

def message (e : FileError) : String := ": ".intercalate e.chain

end FileError

namespace ImageFile

/-- A file of the given bytes. The section table is not looked at. -/
def ofBytes (path : String) (data : Bytes) : Except LoadError ImageFile := do
  if !isTerse data then throw .notTerse
  return { path, data, header := ← parseHeader data }

/-- The file at a path, from what comes of opening it. -/
def ofOpened (path : String) (opened : Opened) : Except FileError ImageFile := do
  let content ← opened.mapError (FileError.opening path)
  let data ← content.mapError FileError.reading
  (ofBytes path data).mapError FileError.content

def platform (f : ImageFile) : Platform := .ofMachine f.header.machine

def entryPoint (f : ImageFile) : UInt64 := f.header.entryPoint

def load (f : ImageFile) (source : TypeSource) : Logged (Except LoadError Image) :=
  TeImage.load f.data source

end ImageFile

end TeImage
