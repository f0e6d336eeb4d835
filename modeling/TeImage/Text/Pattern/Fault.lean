/-
What can be wrong with the text of a pattern, and how it is shown: the text with carets under the
part at fault, and the reason.
-/

namespace TeImage.Text.Pattern

inductive FaultKind where
  | escapeEnded
  | escapeUnknown
  | backreference
  | hexDigitInvalid
  | hexEmpty
  | hexNoChar
  | propertyInvalid
  | edgeOrCountEnded
  | edgeUnclosed
  | edgeUnknown
  | classUnclosed
  | classEscapeInvalid
  | classRangeInvalid
  | classRangeNoLiteral
  | countEmpty
  | countTooLarge
  | countUnclosed
  | countInvalid
  | nothingRepeated
  | lookAround
  | groupUnclosed
  | groupUnopened
  | groupNameEmpty
  | groupNameInvalid
  | groupNameUnclosed
  | groupNameRepeated
  | flagEnded
  | flagUnknown
  | flagRepeated
  | flagNegationRepeated
  | flagNegationDangling
  | caseUnavailable
  | shorthandUnavailable
  | propertyUnavailable
  | unicodeNotAllowed
  | matchesNoText
  deriving DecidableEq, Repr

def FaultKind.message : FaultKind → String
  | escapeEnded => "incomplete escape sequence, reached end of pattern prematurely"
  | escapeUnknown => "unrecognized escape sequence"
  | backreference => "backreferences are not supported"
  | hexDigitInvalid => "invalid hexadecimal digit"
  | hexEmpty => "hexadecimal literal empty"
  | hexNoChar => "hexadecimal literal is not a Unicode scalar value"
  | propertyInvalid => "invalid Unicode character class"
  | edgeOrCountEnded =>
    "found either the beginning of a special word boundary or a bounded repetition on a \\b " ++
      "with an opening brace, but no closing brace"
  | edgeUnclosed =>
    "special word boundary assertion is either unclosed or contains an invalid character"
  | edgeUnknown =>
    "unrecognized special word boundary assertion, valid choices are: start, end, start-half or " ++
      "end-half"
  | classUnclosed => "unclosed character class"
  | classEscapeInvalid => "invalid escape sequence found in character class"
  | classRangeInvalid => "invalid character class range, the start must be <= the end"
  | classRangeNoLiteral => "invalid range boundary, must be a literal"
  | countEmpty => "repetition quantifier expects a valid decimal"
  | countTooLarge => "decimal literal invalid"
  | countUnclosed => "unclosed counted repetition"
  | countInvalid => "invalid repetition count range, the start must be <= the end"
  | nothingRepeated => "repetition operator missing expression"
  | lookAround => "look-around, including look-ahead and look-behind, is not supported"
  | groupUnclosed => "unclosed group"
  | groupUnopened => "unopened group"
  | groupNameEmpty => "empty capture group name"
  | groupNameInvalid => "invalid capture group character"
  | groupNameUnclosed => "unclosed capture group name"
  | groupNameRepeated => "duplicate capture group name"
  | flagEnded => "expected flag but got end of regex"
  | flagUnknown => "unrecognized flag"
  | flagRepeated => "duplicate flag"
  | flagNegationRepeated => "flag negation operator repeated"
  | flagNegationDangling => "dangling flag negation operator"
  | caseUnavailable =>
    "Unicode-aware case insensitivity matching is not available (make sure the unicode-case " ++
      "feature is enabled)"
  | shorthandUnavailable =>
    "Unicode-aware Perl class not found (make sure the unicode-perl feature is enabled)"
  | propertyUnavailable => "Unicode property not found"
  | unicodeNotAllowed => "Unicode not allowed here"
  | matchesNoText => "pattern can match invalid UTF-8"

/-- The characters of a pattern from one place up to another. -/
structure Span where
  first : Nat
  last : Nat
  deriving DecidableEq, Repr

structure Fault where
  kind : FaultKind
  span : Span
  /-- What the part at fault is in conflict with. -/
  rival? : Option Span := none
  deriving DecidableEq, Repr

/-- Carets under spans, from a column on. Each span has at least one. -/
def carets : (column : Nat) → List Span → List Char
  | _, [] => []
  | column, s :: spans =>
    let count := max 1 (s.last - s.first)
    List.replicate (s.first - column) ' ' ++ List.replicate count '^' ++
      carets (max column s.first + count) spans

/-- How a fault in a pattern is shown. -/
def Fault.message (f : Fault) (pattern : String) : String :=
  let spans := match f.rival? with
    | none => [f.span]
    | some rival => if rival.first ≤ f.span.first then [rival, f.span] else [f.span, rival]
  "regex parse error:\n    " ++ pattern ++ "\n    " ++ String.ofList (carets 0 spans) ++
    "\nerror: " ++ f.kind.message

end TeImage.Text.Pattern
