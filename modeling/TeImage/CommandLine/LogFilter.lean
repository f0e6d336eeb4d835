/-
Which log lines are shown.

A filter is a list of directives and, if there is one, a pattern that a message must have a part of.
A directive is a level, which may be bound to the channels whose name starts with a given text. Of
the directives that apply to a line the one with the longest name decides.
-/
import TeImage.Log
import TeImage.Text.Blank
import TeImage.Text.Pattern.Reader

namespace TeImage.CommandLine

structure Directive where
  /-- What the name of the channel must start with, if it matters. -/
  target? : Option String
  /-- The least important level that is shown; nothing is shown if there is none. -/
  level? : Option Level

namespace Directive

def applies (d : Directive) (channel : Channel) : Bool :=
  d.target?.all fun target => target.toList.isPrefixOf channel.target.toList

def shows (d : Directive) (level : Level) : Bool := d.level?.any (level.rank ≤ ·.rank)

/-- The bytes of the name. -/
def size (d : Directive) : Nat := (d.target?.map (·.utf8ByteSize)).getD 0

end Directive

structure LogFilter where
  /-- The first one that applies decides. -/
  directives : List Directive
  pattern? : Option Text.Pattern := none

namespace LogFilter

/-! ## Reading a filter -/

/-- A part of the text of a filter that is left out. -/
inductive Remark where
  /-- The whole text, since it has more than two parts. -/
  | manyParts (text : String)
  | directive (text : String)
  | pattern (text : String) (refusal : Text.Pattern.Refusal)
  deriving DecidableEq, Repr

def Remark.message : Remark → String
  | manyParts text => s!"invalid logging spec '{text}' (too many '/'s)"
  | directive text => s!"invalid logging spec '{text}'"
  | pattern text refusal => "invalid regex filter - " ++ refusal.message text

/-- A word that names a level, in letters of either case. -/
def level? (word : String) : Option (Option Level) :=
  match String.ofList (word.toList.map Char.toLower) with
  | "off" => some none
  | "error" => some (some .error)
  | "warn" => some (some .warn)
  | "info" => some (some .info)
  | "debug" => some (some .debug)
  | "trace" => some (some .trace)
  | _ => none

/-- A directive: a level, a name, or a name and a level with an equals sign between them. A name
alone stands for all its lines, and where nothing stands at all there is no directive. -/
def readDirective (text : List Char) : Except Remark (Option Directive) :=
  let text := Text.trim text
  if text.isEmpty then .ok none
  else
    match text.splitOn '=' with
    | [word] =>
      let word := String.ofList word
      match level? word with
      | some level? => .ok (some ⟨none, level?⟩)
      | none => .ok (some ⟨some word, some .trace⟩)
    | [name, word] =>
      let name := String.ofList name
      let word := String.ofList (Text.trim word)
      if word = "" then .ok (some ⟨some name, some .trace⟩)
      else
        match level? word with
        | some level? => .ok (some ⟨some name, level?⟩)
        | none => .error (.directive word)
    | _ => .error (.directive (String.ofList text))

/-- Reads directives with commas between them, and remarks on those that are none. -/
def readDirectives (text : List Char) : List Directive × List Remark :=
  (text.splitOn ',').foldr (fun part (ds, remarks) =>
    match readDirective part with
    | .ok none => (ds, remarks)
    | .ok (some d) => (d :: ds, remarks)
    | .error remark => (ds, remark :: remarks)) ([], [])

/-- Adds a directive, in the place of one of the same name if there is one. -/
def insert (ds : List Directive) (d : Directive) : List Directive :=
  if ds.any (·.target? = d.target?) then ds.map fun e => if e.target? = d.target? then d else e
  else ds ++ [d]

/-- The filter of some directives: those of longer names come first, and of two names of one length
the later one. Errors alone are shown if there is none. -/
def ofDirectives (ds : List Directive) (pattern? : Option Text.Pattern) : LogFilter :=
  match ds.foldl insert [] with
  | [] => ⟨[⟨none, some .error⟩], pattern?⟩
  | ds => ⟨(ds.mergeSort fun a b => a.size ≤ b.size).reverse, pattern?⟩

/-- The filter that a text describes: directives, and behind a slash a pattern. -/
def ofText (text : String) : LogFilter × List Remark :=
  match text.toList.splitOn '/' with
  | [] => (ofDirectives [] none, [])
  | [directives] =>
    let (ds, remarks) := readDirectives directives
    (ofDirectives ds none, remarks)
  | [directives, pattern] =>
    let (ds, remarks) := readDirectives directives
    let pattern := String.ofList pattern
    match Text.Pattern.read pattern with
    | .ok p => (ofDirectives ds (some p), remarks)
    | .error refusal => (ofDirectives ds none, remarks ++ [.pattern pattern refusal])
  | _ => (ofDirectives [] none, [.manyParts text])

/-- Lines of every channel down to a level. -/
def upTo (level : Level) : LogFilter := ⟨[⟨none, some level⟩], none⟩

/-- The filter of a run: the one asked for by name, or else warnings, and more for each time that
more was asked for. -/
def forRun (text? : Option String) (verbosity : Nat) : LogFilter × List Remark :=
  match text?, verbosity with
  | some text, _ => ofText text
  | none, 0 => (upTo .warn, [])
  | none, 1 => (upTo .info, [])
  | none, _ => (upTo .debug, [])

/-! ## Using a filter -/

/-- Whether a line is shown. -/
def shows (f : LogFilter) (line : LogLine) : Bool :=
  match f.directives.find? (·.applies line.channel) with
  | some d => d.shows line.level && f.pattern?.all (·.occursIn line.message)
  | none => false

end LogFilter

end TeImage.CommandLine
