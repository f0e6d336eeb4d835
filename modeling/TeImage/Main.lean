/-
The program: takes the arguments and the environment, looks up what stands at the paths they name,
and prints what `CommandLine` makes of it.
-/
import TeImage.CommandLine.Run

namespace TeImage.Main

/-- The reason for which the system refuses to open or read something. -/
def faultOf (e : IO.Error) : FileFault :=
  match e with
  | .noFileOrDirectory .. => .notFound
  | .inappropriateType .. => .notADirectory
  | .invalidArgument _ 36 _ => .nameTooLong
  | .permissionDenied _ code details => .other s!"{details} (os error {code})"
  | e => .other (toString e)

/-- The fault of an action that fails. -/
def attempt {α : Type} (action : IO α) : IO (Except FileFault α) := do
  try
    return .ok (← action)
  catch e =>
    return .error (faultOf e)

/-- What the system shows at one path. -/
structure Shown where
  isFile : Bool
  opened : Opened
  listed : Except FileFault (List (Except FileFault Bytes))

def lookUp (path : Bytes) : IO Shown := do
  match ← attempt (IO.FS.realPath (Utf8.decodeLossy path)) with
  | .error fault => return ⟨false, .error fault, .error fault⟩
  | .ok place =>
    let isDirectory ← place.isDir
    let opened ← attempt do
      let handle ← IO.FS.Handle.mk place .read
      if isDirectory then return .error .isADirectory
      return (← attempt handle.readBinToEnd).map (·.toList)
    return {
      isFile := (← attempt place.metadata).toOption.any fun found => found.type == .file
      opened
      listed := (← attempt place.readDir).map fun entries =>
        entries.toList.map fun entry => .ok (Utf8.encode entry.fileName) }

/-- Looks up a directory and the files of definitions in it. -/
def lookUpDirectory (path : Bytes) : IO (List (Bytes × Shown)) := do
  let shown ← lookUp path
  let names := (shown.listed.toOption.getD []).filterMap Except.toOption
  let files ← (names.filter TypeDirectory.isTypeFileName).mapM fun name => do
    let file := joinPath path name
    return (file, ← lookUp file)
  return (path, shown) :: files

/-- The files that were looked up. Nothing is seen at other paths. -/
def systemOf (table : List (Bytes × Shown)) : FileSystem where
  isFile path := (table.lookup path).any (·.isFile)
  openFile path := ((table.lookup path).map (·.opened)).getD (.error .notFound)
  list path := ((table.lookup path).map (·.listed)).getD (.error .notFound)

/-- What is said of a text that holds no definitions. -/
def explain (_ : String) : Json.Fault → String
  | .ended => "the text ends too early"
  | .malformed => "malformed JSON text"
  | .unsuitable => "not a list of type definitions"

/-- Looks up the paths that a request names and gives the output of its run. -/
def outputOf (environment : CommandLine.Environment) (arguments : List String) :
    IO CommandLine.Output := do
  match CommandLine.Request.of environment arguments with
  | .ok (.run options) =>
    let image := Utf8.encode options.path
    let directories := match options.typesDirectory? with
      | none => []
      | some path =>
        [Platform.x86, .x86_64, .aarch64].flatMap (TypeDirectory.directories (Utf8.encode path))
    let types ← directories.mapM lookUpDirectory
    let table := (image, ← lookUp image) :: types.flatten
    return options.run explain (systemOf table) environment
  | _ => return CommandLine.run explain (systemOf []) environment arguments

/-- Runs the program and gives its exit code. -/
def run (arguments : List String) : IO UInt32 := do
  let output ← outputOf {
    typesDirectory? := ← IO.getEnv "TERSE_TYPES_DIR"
    logFilter? := ← IO.getEnv "RUST_LOG"
    logStyle? := ← IO.getEnv "RUST_LOG_STYLE"
    forceColor? := ← IO.getEnv "CLICOLOR_FORCE"
    noColor? := ← IO.getEnv "NO_COLOR" } arguments
  (← IO.getStdout).putStr output.stdout
  (← IO.getStderr).putStr output.stderr
  return output.exitCode.toUInt32

end TeImage.Main

def main (arguments : List String) : IO UInt32 := TeImage.Main.run arguments
