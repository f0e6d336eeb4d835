/-
What a user asks for: the arguments of the command line and the variables of the environment.

The arguments are a path and a command, with options before, between and behind them. The
arguments are read from left to right, and the first that does not fit ends the reading, as does a
request for the version or for help.
-/

namespace TeImage.CommandLine

/-- The variables of the environment that count, each if it is set. -/
structure Environment where
  typesDirectory? : Option String := none
  logFilter? : Option String := none
  logStyle? : Option String := none
  forceColor? : Option String := none
  noColor? : Option String := none

inductive Command where
  | info (json : Bool)
  | entry
  | regions
  | sections
  | symbols
  | types
  | dump
  deriving DecidableEq, Repr

structure Options where
  path : String
  typesDirectory? : Option String
  /-- How often more log lines were asked for. -/
  verbosity : Nat
  command : Command
  deriving DecidableEq, Repr

inductive Request where
  | run (options : Options)
  | version
  | help
  deriving DecidableEq, Repr

inductive UsageError where
  | unknownOption (option : String)
  | repeatedOption (option : String)
  | missingValue (option : String)
  | needlessValue (option : String)
  | emptyValue (name : String)
  | unexpectedArgument (argument : String)
  | missingPath
  | missingCommand
  deriving DecidableEq, Repr

namespace UsageError

def message : UsageError → String
  | unknownOption option => s!"unknown option '{option}'"
  | repeatedOption option => s!"option '{option}' may be given only once"
  | missingValue option => s!"option '{option}' needs a value"
  | needlessValue option => s!"option '{option}' takes no value"
  | emptyValue name => s!"'{name}' must not be empty"
  | unexpectedArgument argument => s!"unexpected argument '{argument}'"
  | missingPath => "no path was given"
  | missingCommand => "no command was given"

end UsageError

/-! ## One argument -/

/-- How an argument is written. -/
inductive Form where
  /-- Two dashes: no options follow. -/
  | endOfOptions
  /-- A name behind two dashes, and what stands behind an equals sign. -/
  | long (name : String) (value? : Option String)
  /-- Letters behind one dash. -/
  | short (letters : List Char)
  | plain (text : String)
  deriving DecidableEq, Repr

namespace Form

def of (argument : String) : Form :=
  match argument.toList with
  | ['-', '-'] => endOfOptions
  | '-' :: '-' :: cs =>
    let name := String.ofList (cs.takeWhile (· ≠ '='))
    match cs.dropWhile (· ≠ '=') with
    | [] => long name none
    | _ :: value => long name (some (String.ofList value))
  | '-' :: c :: cs => short (c :: cs)
  | _ => plain argument

end Form

/-- The command of a name, without its own options. -/
def commandNamed? : String → Option Command
  | "info" => some (.info false)
  | "entry" => some .entry
  | "regions" => some .regions
  | "sections" => some .sections
  | "symbols" => some .symbols
  | "types" => some .types
  | "dump" => some .dump
  | _ => none

/-- How to go on behind options that are letters: with their number, or with another request. -/
inductive Letters where
  | verbosity (count : Nat)
  | request (r : Request)

/-- Reads option letters. Only before the command the version may be asked for. -/
def readLetters (beforeCommand : Bool) (count : Nat) : List Char → Except UsageError Letters
  | [] => .ok (.verbosity count)
  | c :: cs =>
    if c = 'v' then readLetters beforeCommand (count + 1) cs
    else if c = 'h' then .ok (.request .help)
    else if c = 'V' ∧ beforeCommand then .ok (.request .version)
    else .error (.unknownOption (String.ofList ['-', c]))

/-- What the word for help asks for: help in general or about one of the commands. -/
def helpRequest : List String → Except UsageError Request
  | [] => .ok .help
  | [name] =>
    if (commandNamed? name).isSome ∨ name = "help" then .ok .help
    else .error (.unexpectedArgument name)
  | _ :: name :: _ => .error (.unexpectedArgument name)

/-! ## Behind the command -/

/-- What was found before the command. -/
structure Found where
  path? : Option String := none
  typesDirectory? : Option String := none
  verbosity : Nat := 0

/-- Puts a request together. The log lines asked for behind the command count if there are any. -/
def Found.request (f : Found) (verbosity : Nat) (command : Command) : Except UsageError Request :=
  match f.path? with
  | none => .error .missingPath
  | some path => .ok (.run {
      path
      typesDirectory? := f.typesDirectory?
      verbosity := if verbosity = 0 then f.verbosity else verbosity
      command })

/-- Reads the arguments behind the command. -/
def readOptions (f : Found) (verbosity : Nat) (command : Command) :
    List String → Except UsageError Request
  | [] => f.request verbosity command
  | argument :: rest =>
    match Form.of argument with
    | .endOfOptions =>
      match rest with
      | [] => f.request verbosity command
      | argument :: _ => .error (.unexpectedArgument argument)
    | .long "verbose" value? =>
      if value?.isSome then .error (.needlessValue argument)
      else readOptions f (verbosity + 1) command rest
    | .long "help" none => .ok .help
    | .long "json" value? =>
      match command with
      | .info json =>
        if value?.isSome then .error (.needlessValue argument)
        else if json then .error (.repeatedOption argument)
        else readOptions f verbosity (.info true) rest
      | _ => .error (.unknownOption argument)
    | .long _ _ => .error (.unknownOption argument)
    | .short letters => do
      match ← readLetters false verbosity letters with
      | .verbosity verbosity => readOptions f verbosity command rest
      | .request r => .ok r
    | .plain _ => .error (.unexpectedArgument argument)

/-! ## Before the command -/

/-- Takes up a directory of type definitions. -/
def Found.withTypes (f : Found) (directory : String) : Except UsageError Found :=
  if f.typesDirectory?.isSome then .error (.repeatedOption "--types-dir")
  else if directory = "" then .error (.emptyValue "--types-dir")
  else .ok { f with typesDirectory? := some directory }

/-- Takes up a path. -/
def Found.withPath (f : Found) (path : String) : Except UsageError Found :=
  if f.path?.isSome then .error (.unexpectedArgument path)
  else if path = "" then .error (.emptyValue "PATH")
  else .ok { f with path? := some path }

/-- Reads the arguments up to the command. When `awaitsTypes` is set, the next argument is the
directory of type definitions. -/
def readArguments (f : Found) (awaitsTypes : Bool) : List String → Except UsageError Request
  | [] =>
    if awaitsTypes then .error (.missingValue "--types-dir")
    else if f.path?.isNone then .error .missingPath
    else .error .missingCommand
  | argument :: rest =>
    match awaitsTypes, Form.of argument with
    | true, .plain directory => do readArguments (← f.withTypes directory) false rest
    | true, _ => .error (.missingValue "--types-dir")
    | false, .endOfOptions => .error .missingCommand
    | false, .long "types-dir" (some directory) => do
      readArguments (← f.withTypes directory) false rest
    | false, .long "types-dir" none => readArguments f true rest
    | false, .long "verbose" none =>
      readArguments { f with verbosity := f.verbosity + 1 } false rest
    | false, .long "version" none => .ok .version
    | false, .long "help" none => .ok .help
    | false, .long name value? =>
      if value?.isSome ∧ (name = "verbose" ∨ name = "version" ∨ name = "help") then
        .error (.needlessValue argument)
      else .error (.unknownOption argument)
    | false, .short letters => do
      match ← readLetters true f.verbosity letters with
      | .verbosity verbosity => readArguments { f with verbosity } false rest
      | .request r => .ok r
    | false, .plain text =>
      match commandNamed? text with
      | some command => readOptions f 0 command rest
      | none =>
        if text = "help" then helpRequest rest
        else do readArguments (← f.withPath text) false rest

/-- What is asked for by all arguments. The environment names the directory of type definitions
where no option does. -/
def Request.of (environment : Environment) (arguments : List String) :
    Except UsageError Request := do
  match ← readArguments {} false arguments with
  | .run options =>
    match options.typesDirectory?, environment.typesDirectory? with
    | none, some "" => .error (.emptyValue "--types-dir")
    | none, some directory => .ok (.run { options with typesDirectory? := some directory })
    | _, _ => .ok (.run options)
  | request => .ok request

end TeImage.CommandLine
