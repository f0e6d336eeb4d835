/-
A run of the program: from the arguments and the files that the system shows to an exit code and the
text for both output streams.

A run that fails prints nothing but log lines and the reasons of the failure. All that a command
prints is made before any of it is printed.
-/
import TeImage.CommandLine.LogOutput
import TeImage.CommandLine.Report

namespace TeImage.CommandLine

structure Output where
  exitCode : UInt8
  stdout : String
  stderr : String
  deriving DecidableEq, Repr

/-- Lines as text. -/
def unlines (lines : List String) : String := String.join (lines.map (· ++ "\n"))

/-! ## Without a file -/

def versionText : String := "teinfo 0.1.0\n"

def helpText : String := unlines [
  "Inspect UEFI TE images (header, regions, sections, symbols, entry point)",
  "",
  "Usage: teinfo [OPTIONS] <PATH> <COMMAND>",
  "",
  "Commands:",
  "  info      Show the decoded TE header",
  "  entry     Show entry point and its prototype",
  "  regions   List memory regions",
  "  sections  List sections",
  "  symbols   List symbols",
  "  types     List type definitions",
  "  dump      Dump the whole load result as JSON",
  "",
  "Options:",
  "      --types-dir <DIR>  Directory of JSON type definitions to import",
  "  -v, --verbose...       Raise log verbosity",
  "  -h, --help             Print help",
  "  -V, --version          Print version"]

/-- The output for arguments that make no request. -/
def usageOutput (e : UsageError) : Output :=
  ⟨2, "", s!"error: {e.message}\n\nFor more information, try '--help'.\n"⟩

/-! ## With a file -/

/-- Why a run fails. -/
inductive RunError where
  | file (e : FileError)
  | load (path : String) (e : LoadError)
  /-- The image was loaded, but what the command prints of it has no text. -/
  | writing (e : Json.KeyFault)

namespace RunError

/-- What went wrong, the context first and the cause behind it. -/
def chain : RunError → List String
  | file e => e.chain
  | load path e => [s!"failed to load {path}", e.message]
  | writing e => [e.message]

/-- What is printed about it. -/
def text (e : RunError) : String :=
  match e.chain with
  | [] => ""
  | outer :: causes =>
    let details := if causes.isEmpty then [] else ["", "Caused by:"] ++ causes.map ("    " ++ ·)
    unlines (("Error: " ++ outer) :: details)

end RunError

section

variable (explain : Json.Wording) (files : FileSystem)

/-- Where the type definitions come from. -/
def Options.source (o : Options) : TypeSource :=
  match o.typesDirectory? with
  | none => .empty
  | some path => .directory (Utf8.encode path) files explain

/-- What comes of opening the file that the options name. -/
def Options.opened (o : Options) : Opened := files.openFile (Utf8.encode o.path)

/-- The image in the file that the options name, with the file. -/
def Options.load (o : Options) : Logged (Except RunError (ImageFile × Image)) := do
  match ImageFile.ofOpened o.path (o.opened files) with
  | .error e => return .error (.file e)
  | .ok file =>
    Logged.write
      [⟨.debug, .commandLine, s!"read {file.path} ({file.data.length} bytes)"⟩]
    match ← file.load (o.source explain files) with
    | .error e => return .error (.load file.path e)
    | .ok image => return .ok (file, image)

/-- The lines that the command prints about the file that the options name. -/
def Options.report (o : Options) (colored : Bool) : Logged (Except RunError (List String)) := do
  match ← o.load explain files with
  | .error e => return .error e
  | .ok (file, image) => return (o.command.report colored file image).mapError .writing

/-- The output of a run with the given options. -/
def Options.run (o : Options) (environment : Environment) : Output :=
  let outcome := o.report explain files (wantsColor environment)
  let log := logOutput environment o.verbosity outcome.lines
  match outcome.value with
  | .error e => ⟨1, "", log ++ e.text⟩
  | .ok lines => ⟨0, unlines lines, log⟩

/-- The output of a run on the files that the system shows. -/
def run (environment : Environment) (arguments : List String) : Output :=
  match Request.of environment arguments with
  | .error e => usageOutput e
  | .ok .version => ⟨0, versionText, ""⟩
  | .ok .help => ⟨0, helpText, ""⟩
  | .ok (.run o) => o.run explain files environment

end

end TeImage.CommandLine
