/-
Where further type definitions come from.

A directory source reads the files of its directory and then those of the platform's own
subdirectory, each directory in the order of file names, so that a definition for the platform
comes behind a shared one of the same name. A directory that cannot be listed counts as empty and a
file that cannot be read as a list of definitions is left out as a whole, so a directory source
never fails.
-/
import TeImage.Bytes.Utf8
import TeImage.FileTree
import TeImage.Log
import TeImage.Platform
import TeImage.Types.Text

namespace TeImage

/-! ## Directories of definitions -/

namespace TypeDirectory

/-- A file name with the extension `json`: something, and `.json` behind it. -/
def isTypeFileName (name : Bytes) : Bool :=
  (Utf8.encode ".json").isSuffixOf name && 5 < name.length

/-- The files of definitions among the names in a directory, in the order of their bytes. -/
def typeFiles (files : FileSystem) (directory : Bytes) (names : List Bytes) : List Bytes :=
  (names.filter fun name => files.isFile (joinPath directory name) && isTypeFileName name).mergeSort
    fun a b => a ≤ b

/-- Why a file of definitions is left out. -/
inductive FileRefusal where
  | unreadable (fault : FileFault)
  | notText
  | notDefinitions (text : String) (fault : Json.Fault)
  deriving DecidableEq, Repr

/-- The definitions in the content of a file. -/
def definitionsOf (content : Except FileFault Bytes) : Except FileRefusal (List TypeDef) :=
  match content with
  | .error fault => .error (.unreadable fault)
  | .ok bytes =>
    match Utf8.decode? bytes with
    | none => .error .notText
    | some text => (TypeText.parseTypeDefs text).mapError (.notDefinitions text)

/-- What is said of a file that is left out. -/
def FileRefusal.message (explain : Json.Wording) (path : String) : FileRefusal → String
  | unreadable fault => s!"reading {path}: {fault.message}"
  | notText => s!"reading {path}: stream did not contain valid UTF-8"
  | notDefinitions text fault => s!"parsing {path}: {explain text fault}"

section

variable (explain : Json.Wording) (files : FileSystem)

/-- Reads one file. -/
def readFile (path : Bytes) : Logged (List TypeDef) :=
  let shown := Utf8.decodeLossy path
  match definitionsOf (files.read path) with
  | .ok defs =>
    ⟨[⟨.debug, .typeFiles, s!"{defs.length} type(s) from {shown}"⟩], defs⟩
  | .error refusal =>
    ⟨[⟨.warn, .typeFiles, "skipping type file: " ++ refusal.message explain shown⟩], []⟩

/-- Reads the files of one directory. -/
def readDirectory (directory : Bytes) : Logged (List TypeDef) :=
  match files.names directory with
  | .ok names =>
    Logged.gather (fun name => readFile explain files (joinPath directory name))
      (typeFiles files directory names)
  | .error fault =>
    let shown := Utf8.decodeLossy directory
    ⟨[⟨.debug, .typeFiles, s!"no type definitions in {shown}: {fault.message}"⟩], []⟩

/-- The directories that are read for a platform: the shared one and then the platform's own. -/
def directories (path : Bytes) (platform : Platform) : List Bytes :=
  path :: (platform.name?.map fun own => joinPath path (Utf8.encode own)).toList

/-- Reads the shared files, then those of the platform. -/
def read (path : Bytes) (platform : Platform) : Logged (List TypeDef) :=
  Logged.gather (readDirectory explain files) (directories path platform)

end

end TypeDirectory

/-! ## Sources -/

inductive TypeSource where
  /-- No definitions. -/
  | empty
  /-- The same definitions for every platform. -/
  | fixed (defs : List TypeDef)
  /-- The directory at `path` and those below it, in the files that the system shows. What is wrong
  with a text is said in the words of `explain`. -/
  | directory (path : Bytes) (files : FileSystem) (explain : Json.Wording)
  /-- A source that gives nothing, for reasons of which each is the cause of the one before. -/
  | failing (reasons : List String)

/-- The definitions for a platform, or the reasons why there are none. -/
def TypeSource.definitions (source : TypeSource) (platform : Platform) :
    Logged (Except (List String) (List TypeDef)) :=
  match source with
  | empty => pure (.ok [])
  | fixed defs => pure (.ok defs)
  | directory path files explain => do
    return .ok (← TypeDirectory.read explain files path platform)
  | failing reasons => pure (.error reasons)

end TeImage
