/-
What the system tells of files and directories when it is asked about paths (`FileSystem`), and
trees of files and directories, in which paths are followed to tell it (`FileTree.system`).

Each question is about a path of its own. A directory may refuse to be listed and still be searched
for what stands in it under a given name, and the other way round.
-/
import TeImage.Bytes

namespace TeImage

/-- Why the system does not open or read what stands at a path. -/
inductive FileFault where
  | notFound
  | notADirectory
  | isADirectory
  | nameTooLong
  /-- The path holds a NUL character. -/
  | nulInPath
  /-- Any other reason, in the system's words. -/
  | other (reason : String)
  deriving DecidableEq, Repr

def FileFault.message : FileFault → String
  | notFound => "No such file or directory (os error 2)"
  | notADirectory => "Not a directory (os error 20)"
  | isADirectory => "Is a directory (os error 21)"
  | nameTooLong => "File name too long (os error 36)"
  | nulInPath => "file name contained an unexpected NUL byte"
  | other reason => reason

/-! ## Paths -/

/-- The byte between the names of a path. -/
def slash : UInt8 := 0x2F

/-- The path of what stands in a directory under `name`. -/
def joinPath (directory name : Bytes) : Bytes :=
  if directory = [] ∨ directory.getLast? = some slash then directory ++ name
  else directory ++ slash :: name

/-- The number of bytes that a path must stay below. -/
def pathLimit : Nat := 4096

/-- Why the system takes a byte string for no path, wherever it would lead. -/
def pathFault? (path : Bytes) : Option FileFault :=
  if path.contains 0 then some .nulInPath
  else if path = [] then some .notFound
  else if path.length ≥ pathLimit then some .nameTooLong
  else none

/-- The names that a path lists. Two slashes in a row have an empty name between them, a slash at
the end one behind it. -/
def pathNames (path : Bytes) : List Bytes := path.splitOn slash

/-! ## What is asked about paths -/

/-- What comes of opening a file and reading it to its end. The outer fault is one of opening it,
the inner one of reading it. -/
abbrev Opened := Except FileFault (Except FileFault Bytes)

/-- What the system answers when it is asked about a path. -/
structure FileSystem where
  /-- Whether a regular file is seen there. -/
  isFile : Bytes → Bool
  openFile : Bytes → Opened
  /-- What is listed there, name by name; a name may fail to come. -/
  list : Bytes → Except FileFault (List (Except FileFault Bytes))

namespace FileSystem

/-- The content of a file. -/
def read (files : FileSystem) (path : Bytes) : Except FileFault Bytes :=
  (files.openFile path).bind id

/-- The names that come when a directory is listed. -/
def names (files : FileSystem) (directory : Bytes) : Except FileFault (List Bytes) :=
  (files.list directory).map (·.filterMap Except.toOption)

end FileSystem

/-! ## Trees -/

/-- A regular file, something else that may be opened, such as a device, or a directory with what
stands in it. A directory may refuse to be listed, and to be searched. -/
inductive FileTree where
  | file (opened : Opened)
  | special (opened : Opened)
  | directory (unlistable? unsearchable? : Option FileFault) (entries : List (Bytes × FileTree))

namespace FileTree

/-- Bytes in the longest name that a file or directory may have. -/
def maxNameSize : Nat := 255

/-- Follows the names of a path from `here`, where `above` are the directories passed on the way,
innermost first. -/
def follow (above : List FileTree) (here : FileTree) : List Bytes → Except FileFault FileTree
  | [] => .ok here
  | name :: names =>
    match here with
    | file _ | special _ => .error .notADirectory
    | directory _ unsearchable? entries =>
      if name = [] then follow above here names
      else
        match unsearchable? with
        | some fault => .error fault
        | none =>
          if name = [0x2E] then follow above here names
          else if name = [0x2E, 0x2E] then
            match above with
            | [] => follow [] here names
            | outer :: above => follow above outer names
          else if name.length > maxNameSize then .error .nameTooLong
          else
            match entries.lookup name with
            | none => .error .notFound
            | some next => follow (here :: above) next names

/-- What stands at a path that starts at the root of the tree. -/
def find (root : FileTree) (path : Bytes) : Except FileFault FileTree :=
  match pathFault? path with
  | some fault => .error fault
  | none => follow [] root (pathNames path)

def isFile : FileTree → Bool
  | file _ => true
  | special _ | directory .. => false

/-- What comes of opening and reading it. A directory is opened like a file, but not read. -/
def opened : FileTree → Opened
  | file opened | special opened => opened
  | directory none _ _ => .ok (.error .isADirectory)
  | directory (some fault) _ _ => .error fault

def list : FileTree → Except FileFault (List (Except FileFault Bytes))
  | file _ | special _ => .error .notADirectory
  | directory none _ entries => .ok (entries.map fun entry => .ok entry.1)
  | directory (some fault) _ _ => .error fault

/-- What is told of the paths that start at the root of the tree. -/
def system (root : FileTree) : FileSystem where
  isFile path := (root.find path).toOption.any isFile
  openFile path := (root.find path).bind opened
  list path := (root.find path).bind list

end FileTree

end TeImage
