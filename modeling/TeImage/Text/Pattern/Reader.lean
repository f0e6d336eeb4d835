/-
Reading the text of a pattern. It is read from left to right, with the groups and classes that are
still open on a stack, and a part that is malformed ends the reading. A part that is well-formed but
cannot be matched is a fault only in a pattern that is well-formed as a whole; the first one counts.

Characters are told apart by code points, and there are no tables of letters and digits beyond
ASCII: what needs them can be had only where the flag for Unicode is off.
-/
import TeImage.Text.Blank
import TeImage.Text.Numeral
import TeImage.Text.Pattern
import TeImage.Text.Pattern.Fault

namespace TeImage.Text.Pattern

/-! ## Flags -/

structure Flags where
  ignoresCase : Bool := false
  multiLine : Bool := false
  dotIsAny : Bool := false
  crlf : Bool := false
  unicode : Bool := true
  /-- Blanks and comments in the pattern are passed over. -/
  spaced : Bool := false

/-- The flags with the one of a letter set or taken back. -/
def Flags.set? (f : Flags) (letter : Char) (on : Bool) : Option Flags :=
  match letter with
  | 'i' => some { f with ignoresCase := on }
  | 'm' => some { f with multiLine := on }
  | 's' => some { f with dotIsAny := on }
  | 'R' => some { f with crlf := on }
  | 'u' => some { f with unicode := on }
  | 'x' => some { f with spaced := on }
  | 'U' => some f
  | _ => none

/-- The text behind blanks and comments, where these are passed over. -/
def skipSpaced (f : Flags) (cs : List Char) : List Char :=
  if f.spaced then pass false cs else cs
where
  pass (inComment : Bool) : List Char → List Char
    | [] => []
    | c :: cs =>
      if inComment then pass (c ≠ '\n') cs
      else if c = '#' then pass true cs
      else if isBlank c then pass false cs
      else c :: cs

/-! ## Escapes

A pattern has `n` characters, so a rest of it starts at `n` less its length. -/

def failAt {α : Type} (kind : FaultKind) (first last : Nat) : Except Fault α :=
  .error ⟨kind, ⟨first, last⟩, none⟩

inductive Shorthand where
  | digit
  | blank
  | word

def Shorthand.set : Shorthand → CharSet
  | digit => .range '0' '9'
  | blank => .ofList ['\t', '\n', '\x0B', '\x0C', '\r', ' ']
  | word =>
    .union (.union (.range 'a' 'z') (.range 'A' 'Z')) (.union (.range '0' '9') (.single '_'))

/-- What a backslash and the characters behind it stand for. -/
inductive Escape where
  /-- A character, and whether it was written as the two hexadecimal digits of a byte. -/
  | literal (c : Char) (isByte : Bool)
  | shorthand (s : Shorthand) (negated : Bool)
  | property
  | place (p : Place)

/-- The character of a code point. -/
def charOf? (code : Nat) : Option Char := if code.isValidChar then some (Char.ofNat code) else none

/-- The number that `count` hexadecimal digits write. -/
def readHex (n : Nat) : (count value : Nat) → List Char → Except Fault (Nat × List Char)
  | 0, value, cs => .ok (value, cs)
  | _ + 1, _, [] => failAt .escapeEnded n n
  | count + 1, value, c :: cs =>
    let here := n - (cs.length + 1)
    match hexValue? c with
    | none => failAt .hexDigitInvalid here (here + 1)
    | some digit => readHex n count (value * 16 + digit) cs

/-- The character whose code point is written by `count` hexadecimal digits, or by any number of
them in braces. -/
def readHexChar (n count : Nat) (cs : List Char) : Except Fault (Escape × List Char) :=
  match cs with
  | [] => failAt .escapeEnded n n
  | '{' :: cs => do
    let start := n - cs.length
    let digits := cs.takeWhile fun c => (hexValue? c).isSome
    match cs.dropWhile fun c => (hexValue? c).isSome with
    | [] => failAt .escapeEnded (start - 1) n
    | '}' :: rest =>
      let stop := n - (rest.length + 1)
      if digits.isEmpty then failAt .hexEmpty (start - 1) (stop + 1)
      else
        match charOf? (digits.foldl (fun v c => v * 16 + (hexValue? c).getD 0) 0) with
        | none => failAt .hexNoChar start stop
        | some c => .ok (.literal c false, rest)
    | _ :: rest =>
      let here := n - (rest.length + 1)
      failAt .hexDigitInvalid here (here + 1)
  | cs => do
    let start := n - cs.length
    let (value, rest) ← readHex n count 0 cs
    match charOf? value with
    | none => failAt .hexNoChar start (n - rest.length)
    | some c => .ok (.literal c (count = 2), rest)

/-- Passes the name of a property, one letter or a text in braces. -/
def readProperty (n : Nat) (cs : List Char) : Except Fault (Escape × List Char) :=
  match cs with
  | [] => failAt .escapeEnded n n
  | '{' :: cs =>
    match cs.dropWhile (· ≠ '}') with
    | [] => failAt .escapeEnded n n
    | _ :: rest => .ok (.property, rest)
  | c :: cs =>
    let here := n - (cs.length + 1)
    if c = '\\' then failAt .propertyInvalid here (here + 1) else .ok (.property, cs)

/-- The kind of edge that is named in braces, `none` where the brace has another meaning. `start` is
where the escape starts, and the brace stands right before the text. -/
def readEdgeKind (n start : Nat) (cs : List Char) : Except Fault (Option (Place × List Char)) :=
  let isName (c : Char) : Bool := c.isAlpha || c = '-'
  match cs with
  | [] => failAt .edgeOrCountEnded start n
  | c :: _ =>
    if !isName c then .ok none
    else
      let first := n - cs.length
      let name := cs.takeWhile isName
      let last := first + name.length
      match cs.dropWhile isName with
      | '}' :: rest =>
        match String.ofList name with
        | "start" => .ok (some (.wordStart, rest))
        | "end" => .ok (some (.wordEnd, rest))
        | "start-half" => .ok (some (.wordStartHalf, rest))
        | "end-half" => .ok (some (.wordEndHalf, rest))
        | _ => failAt .edgeUnknown first last
      | _ => failAt .edgeUnclosed (first - 1) last

/-- Whether a backslash before the character leaves it as it is: signs of ASCII, but for angle
brackets. -/
def isEscapable (c : Char) : Bool := c.toNat < 128 && !c.isAlphanum && c ≠ '<' && c ≠ '>'

/-- Reads what stands behind a backslash. -/
def readEscape (n : Nat) (cs : List Char) : Except Fault (Escape × List Char) :=
  let start := n - (cs.length + 1)
  match cs with
  | [] => failAt .escapeEnded start n
  | c :: cs =>
    let literal (c : Char) : Except Fault (Escape × List Char) := .ok (.literal c false, cs)
    let place (p : Place) : Except Fault (Escape × List Char) := .ok (.place p, cs)
    let shorthand (s : Shorthand) (negated : Bool) : Except Fault (Escape × List Char) :=
      .ok (.shorthand s negated, cs)
    if c.isDigit then failAt .backreference start (start + 2)
    else if isEscapable c then literal c
    else
      match c with
      | 'x' => readHexChar n 2 cs
      | 'u' => readHexChar n 4 cs
      | 'U' => readHexChar n 8 cs
      | 'p' | 'P' => readProperty n cs
      | 'd' => shorthand .digit false
      | 'D' => shorthand .digit true
      | 's' => shorthand .blank false
      | 'S' => shorthand .blank true
      | 'w' => shorthand .word false
      | 'W' => shorthand .word true
      | 'a' => literal '\x07'
      | 'f' => literal '\x0C'
      | 't' => literal '\t'
      | 'n' => literal '\n'
      | 'r' => literal '\r'
      | 'v' => literal '\x0B'
      | 'A' => place .textStart
      | 'z' => place .textEnd
      | 'B' => place .noWordEdge
      | '<' => place .wordStart
      | '>' => place .wordEnd
      | 'b' =>
        match cs with
        | '{' :: behind => do
          match ← readEdgeKind n start behind with
          | some (p, rest) => return (.place p, rest)
          | none => place .wordEdge
        | _ => place .wordEdge
      | _ => failAt .escapeUnknown start (start + 2)

/-! ## Classes -/

inductive SetOperation where
  | intersection
  | difference
  | either

def SetOperation.apply : SetOperation → CharSet → CharSet → CharSet
  | intersection => .intersection
  | difference => .difference
  | either => .either

/-- What waits for the end of the innermost class that is open. -/
inductive ClassFrame where
  /-- A class inside another one, of which `outer` was read. -/
  | opened (span : Span) (negated : Bool) (outer : CharSet)
  | operand (o : SetOperation) (left : CharSet)

structure ClassReading where
  frames : List ClassFrame
  found : CharSet
  fault? : Option Fault

namespace ClassReading

def add (r : ClassReading) (set : CharSet) : ClassReading := { r with found := .union r.found set }

def withFault (r : ClassReading) (f? : Option Fault) : ClassReading :=
  { r with fault? := r.fault? <|> f? }

/-- What was read since the class was opened, and the frames below. -/
def operands (r : ClassReading) : CharSet × List ClassFrame :=
  match r.frames with
  | .operand o left :: frames => (o.apply left r.found, frames)
  | frames => (r.found, frames)

/-- Goes on with the right side of an operation. -/
def operate (r : ClassReading) (o : SetOperation) : ClassReading :=
  let (left, frames) := r.operands
  { r with frames := .operand o left :: frames, found := .none }

/-- The place where the innermost class was opened. -/
def openSpan? (r : ClassReading) : Option Span :=
  r.frames.findSome? fun
    | .opened span .. => some span
    | .operand .. => none

end ClassReading

/-- The set of an ASCII class. -/
def asciiSet? (name : String) : Option CharSet :=
  let lower := CharSet.range 'a' 'z'
  let upper := CharSet.range 'A' 'Z'
  let digit := CharSet.range '0' '9'
  match name with
  | "alnum" => some (.union lower (.union upper digit))
  | "alpha" => some (.union lower upper)
  | "ascii" => some (.range '\x00' '\x7F')
  | "blank" => some (.ofList ['\t', ' '])
  | "cntrl" => some (.union (.range '\x00' '\x1F') (.single '\x7F'))
  | "digit" => some digit
  | "graph" => some (.range '!' '~')
  | "lower" => some lower
  | "print" => some (.range ' ' '~')
  | "punct" =>
    some (.difference (.range '!' '~') (.union lower (.union upper digit)))
  | "space" => some Shorthand.blank.set
  | "upper" => some upper
  | "word" => some Shorthand.word.set
  | "xdigit" => some (.union digit (.union (.range 'a' 'f') (.range 'A' 'F')))
  | _ => none

/-- An ASCII class by its name between colons, behind the opening bracket. -/
def readAsciiClass? (cs : List Char) : Option (CharSet × List Char) :=
  match cs with
  | ':' :: cs =>
    let (negated, cs) := match cs with
      | '^' :: cs => (true, cs)
      | cs => (false, cs)
    match cs.dropWhile (· ≠ ':') with
    | ':' :: ']' :: rest => do
      let set ← asciiSet? (String.ofList (cs.takeWhile (· ≠ ':')))
      return (if negated then .complement set else set, rest)
    | _ => none
  | _ => none

/-- Opens a class behind its bracket. Dashes right at its start stand for themselves, as does a
closing bracket in their place. -/
def openClass (n : Nat) (flags : Flags) (r : ClassReading) (cs : List Char) :
    Except Fault (ClassReading × List Char) := do
  let start := n - (cs.length + 1)
  let cs := skipSpaced flags cs
  let (negated, cs) := match cs with
    | '^' :: cs => (true, skipSpaced flags cs)
    | cs => (false, cs)
  let dashes := cs.takeWhile (· = '-')
  let behind := skipSpaced flags (cs.dropWhile (· = '-'))
  let (found, behind) := match dashes, behind with
    | [], ']' :: behind => (CharSet.single ']', skipSpaced flags behind)
    | [], behind => (CharSet.none, behind)
    | _ :: _, behind => (CharSet.single '-', behind)
  if behind.isEmpty then failAt .classUnclosed start (if dashes.isEmpty then n else start)
  else
    let frame := ClassFrame.opened ⟨start, n - behind.length⟩ negated r.found
    return ({ r with frames := frame :: r.frames, found }, behind)

/-- The set of an escape in a class, and what hinders its use. -/
def Escape.set (flags : Flags) (span : Span) : Escape → CharSet × Option Fault
  | literal c isByte =>
    let kind? : Option FaultKind :=
      if flags.unicode || c.toNat < 128 then none
      else if isByte then some .matchesNoText
      else some .unicodeNotAllowed
    (.single c, kind?.map fun kind => ⟨kind, span, none⟩)
  | shorthand s negated =>
    let kind? : Option FaultKind :=
      if flags.unicode then some .shorthandUnavailable
      else if negated then some .matchesNoText
      else none
    (s.set, kind?.map fun kind => ⟨kind, span, none⟩)
  | property =>
    let kind : FaultKind := if flags.unicode then .propertyUnavailable else .unicodeNotAllowed
    (.none, some ⟨kind, span, none⟩)
  | place _ => (.none, some ⟨.classEscapeInvalid, span, none⟩)

/-- One character of a class or an escape in it. -/
def readClassItem (n : Nat) (c : Char) (cs : List Char) : Except Fault (Escape × List Char) :=
  if c = '\\' then readEscape n cs else .ok (.literal c false, cs)

/-- The character that bounds a range. -/
def Escape.bound (span : Span) : Escape → Except Fault Char
  | literal c _ => .ok c
  | _ => .error ⟨.classRangeNoLiteral, span, none⟩

/-- Reads a character, an escape or a range of a class. The text ends before the class does where
nothing stands behind. -/
def readClassRange (n : Nat) (flags : Flags) (r : ClassReading) (c : Char) (cs : List Char) :
    Except Fault (ClassReading × List Char) := do
  let start := n - (cs.length + 1)
  let (first, rest) ← readClassItem n c cs
  let firstSpan : Span := ⟨start, n - rest.length⟩
  let alone : Except Fault (ClassReading × List Char) :=
    match first with
    | .place _ => .error ⟨.classEscapeInvalid, firstSpan, none⟩
    | first =>
      let (set, fault?) := first.set flags firstSpan
      .ok ((r.add set).withFault fault?, rest)
  let unclosed : Except Fault (ClassReading × List Char) :=
    .error ⟨.classUnclosed, r.openSpan?.getD ⟨start, start⟩, none⟩
  match skipSpaced flags rest with
  | [] => unclosed
  | '-' :: behind =>
    match skipSpaced flags behind with
    | [] => unclosed
    | d :: behind =>
      if d = ']' ∨ d = '-' then alone
      else
        let secondStart := n - (behind.length + 1)
        let (second, rest) ← readClassItem n d behind
        let secondSpan : Span := ⟨secondStart, n - rest.length⟩
        let low ← first.bound firstSpan
        let high ← second.bound secondSpan
        if high < low then failAt .classRangeInvalid start secondSpan.last
        else
          let fault? := (first.set flags firstSpan).2 <|> (second.set flags secondSpan).2
          return ((r.add (.range low high)).withFault fault?, rest)
  | _ :: _ => alone

/-- Closes the innermost class, whose bracket stands right before `rest`. -/
def ClassReading.close (r : ClassReading) (n : Nat) (flags : Flags) (rest : List Char) :
    ClassReading :=
  let (set, frames) := r.operands
  match frames with
  | .opened span negated outer :: frames =>
    let kind? : Option FaultKind :=
      if flags.unicode then if flags.ignoresCase then some .caseUnavailable else none
      else if negated then some .matchesNoText
      else none
    let set := if flags.ignoresCase then .anyCase set else set
    let set := if negated then .complement set else set
    let fault? := kind?.map fun kind => (⟨kind, ⟨span.first, n - rest.length⟩, none⟩ : Fault)
    { r with frames, found := .union outer set, fault? := r.fault? <|> fault? }
  | frames => { r with frames, found := set }

/-- Reads the rest of the classes that are open. Each step takes a character. -/
def readClass (n : Nat) (flags : Flags) : (steps : Nat) → ClassReading → List Char →
    Except Fault (ClassReading × List Char)
  | 0, r, cs => .ok (r, cs)
  | steps + 1, r, cs => do
    match skipSpaced flags cs with
    | [] => .error ⟨.classUnclosed, r.openSpan?.getD ⟨n, n⟩, none⟩
    | '[' :: cs =>
      match readAsciiClass? cs with
      | some (set, rest) => readClass n flags steps (r.add set) rest
      | none =>
        let (r, rest) ← openClass n flags r cs
        readClass n flags steps r rest
    | ']' :: cs =>
      let r := r.close n flags cs
      if r.frames.isEmpty then return (r, cs) else readClass n flags steps r cs
    | '&' :: '&' :: cs => readClass n flags steps (r.operate .intersection) cs
    | '-' :: '-' :: cs => readClass n flags steps (r.operate .difference) cs
    | '~' :: '~' :: cs => readClass n flags steps (r.operate .either) cs
    | c :: cs =>
      let (r, rest) ← readClassRange n flags r c cs
      readClass n flags steps r rest

/-! ## Groups -/

/-- A group that waits for its end, with what was read around it. -/
structure OpenGroup where
  start : Nat
  flags : Flags
  branches : List Pattern
  items : List (Option Pattern)

structure Reading where
  flags : Flags := {}
  /-- Innermost first. -/
  groups : List OpenGroup := []
  /-- The branches of the innermost group that are complete, last first. -/
  branches : List Pattern := []
  /-- The parts of its last branch, last first; `none` stands for a change of flags. -/
  items : List (Option Pattern) := []
  names : List (List Char × Span) := []
  fault? : Option Fault := none
  /-- Whether there is an edge of words that are not only of ASCII. -/
  needsWords : Bool := false

namespace Reading

def add (r : Reading) (p : Pattern) : Reading := { r with items := some p :: r.items }

def withFault (r : Reading) (f? : Option Fault) : Reading := { r with fault? := r.fault? <|> f? }

/-- The last branch of the innermost group. -/
def branch (r : Reading) : Pattern :=
  r.items.foldl (fun behind item? =>
    match item? with
    | none => behind
    | some item => .sequence item behind) .empty

/-- All branches of the innermost group. -/
def body (r : Reading) : Pattern := r.branches.foldl (fun behind p => .choice p behind) r.branch

end Reading

/-- The flags in a group up to a colon or the closing parenthesis, which are left. `seen` are the
letters and the negation that came before, `negation?` the place of the negation that stands right
before. -/
def readFlags (n : Nat) (f : Flags) (on : Bool) (seen : List (Char × Nat))
    (negation? : Option Nat) : List Char → Except Fault ((Flags × List (Char × Nat)) × List Char)
  | [] => failAt .flagEnded n n
  | c :: cs =>
    let here := n - (cs.length + 1)
    let repeated (kind : FaultKind) (before : Nat) :
        Except Fault ((Flags × List (Char × Nat)) × List Char) :=
      .error ⟨kind, ⟨here, here + 1⟩, some ⟨before, before + 1⟩⟩
    if c = ':' ∨ c = ')' then
      match negation? with
      | some dash => failAt .flagNegationDangling dash (dash + 1)
      | none => .ok ((f, seen), c :: cs)
    else if c = '-' then
      match seen.lookup '-' with
      | some before => repeated .flagNegationRepeated before
      | none => readFlags n f false ((c, here) :: seen) (some here) cs
    else
      match f.set? c on with
      | none => failAt .flagUnknown here (here + 1)
      | some f =>
        match seen.lookup c with
        | some before => repeated .flagRepeated before
        | none => readFlags n f on ((c, here) :: seen) none cs

/-- The name of a group up to the closing angle bracket. -/
def readGroupName (n : Nat) (names : List (List Char × Span)) (cs : List Char) :
    Except Fault ((List Char × Span) × List Char) :=
  let start := n - cs.length
  let fits (first : Bool) (c : Char) : Bool :=
    c = '_' || c.isAlpha || 128 ≤ c.toNat ||
      (!first && (c.isDigit || c = '.' || c = '[' || c = ']'))
  let name := cs.takeWhile (· ≠ '>')
  match (name.take 1).findIdx? (!fits true ·) <|> name.findIdx? (!fits false ·) with
  | some i => failAt .groupNameInvalid (start + i) (start + i + 1)
  | none =>
    match cs.dropWhile (· ≠ '>') with
    | [] => failAt .groupNameUnclosed n n
    | _ :: rest =>
      let span : Span := ⟨start, start + name.length⟩
      if name.isEmpty then failAt .groupNameEmpty start start
      else
        match names.lookup name with
        | some before => .error ⟨.groupNameRepeated, span, some before⟩
        | none => .ok ((name, span), rest)

/-- Opens a group behind its parenthesis, or changes the flags of the group around. -/
def openGroup (n : Nat) (r : Reading) (cs : List Char) : Except Fault (Reading × List Char) :=
  let start := n - (cs.length + 1)
  let opened (r : Reading) (flags : Flags) : Reading :=
    { r with
      flags
      groups := ⟨start, r.flags, r.branches, r.items⟩ :: r.groups
      branches := []
      items := [] }
  let named (cs : List Char) : Except Fault (Reading × List Char) := do
    let (name, rest) ← readGroupName n r.names cs
    return (opened { r with names := name :: r.names } r.flags, rest)
  match cs with
  | '?' :: '=' :: _ | '?' :: '!' :: _ => failAt .lookAround start (start + 3)
  | '?' :: '<' :: '=' :: _ | '?' :: '<' :: '!' :: _ => failAt .lookAround start (start + 4)
  | '?' :: 'P' :: '<' :: cs => named cs
  | '?' :: '<' :: cs => named cs
  | '?' :: cs =>
    if cs.isEmpty then failAt .groupUnclosed start (start + 1)
    else do
      let ((flags, seen), cs) ← readFlags n r.flags true [] none cs
      match cs with
      | ':' :: rest => return (opened r flags, rest)
      | cs =>
        if seen.isEmpty then failAt .nothingRepeated (start + 1) (start + 1)
        else return ({ r with flags, items := none :: r.items }, cs.drop 1)
  | cs => .ok (opened r r.flags, cs)

/-- Closes the innermost group, whose parenthesis stands right before the rest. -/
def closeGroup (n : Nat) (r : Reading) (rest : List Char) : Except Fault Reading :=
  match r.groups with
  | [] =>
    let here := n - (rest.length + 1)
    failAt .groupUnopened here (here + 1)
  | g :: groups =>
    .ok { r with
      flags := g.flags
      groups
      branches := g.branches
      items := some r.body :: g.items }

/-! ## Repetition -/

/-- A decimal number between blanks. -/
def readDecimal (n : Nat) (cs : List Char) : Except Fault Nat × List Char :=
  let cs := cs.dropWhile isBlank
  let start := n - cs.length
  let digits := cs.takeWhile Char.isDigit
  let value := digits.foldl (fun v c => v * 10 + (c.toNat - '0'.toNat)) 0
  let found : Except Fault Nat :=
    if digits.isEmpty then failAt .countEmpty start start
    else if value < UInt32.size then .ok value
    else failAt .countTooLarge start (start + digits.length)
  (found, (cs.dropWhile Char.isDigit).dropWhile isBlank)

/-- The limits of a repetition behind the opening brace. -/
def readCounts (n : Nat) (cs : List Char) : Except Fault ((Nat × Option Nat) × List Char) := do
  let start := n - (cs.length + 1)
  let (low, rest) := readDecimal n cs
  let (counts, rest) ← limits start low rest
  match rest with
  | '}' :: rest =>
    let rest := match rest with
      | '?' :: rest => rest
      | rest => rest
    if counts.2.any (· < counts.1) then failAt .countInvalid start (n - rest.length)
    else return (counts, rest)
  | rest => failAt .countUnclosed start (n - rest.length)
where
  /-- The limits, of which the lower one was read, and the text behind them. -/
  limits (start : Nat) (low : Except Fault Nat) :
      List Char → Except Fault ((Nat × Option Nat) × List Char)
    | [] => failAt .countUnclosed start n
    | [','] => failAt .countUnclosed start n
    | ',' :: '}' :: rest => do return ((← low, none), '}' :: rest)
    | ',' :: rest => do
      let low ← low
      let (high, rest) := readDecimal n rest
      return ((low, some (← high)), rest)
    | rest => do
      let low ← low
      return ((low, some low), rest)

/-- Repeats the last part that was read. `here` is the place of the operator. -/
def Reading.repeatLast (r : Reading) (here : Nat) (counts : Nat × Option Nat) :
    Except Fault Reading :=
  match r.items with
  | some item :: items =>
    .ok { r with items := some (.repeated item counts.1 counts.2) :: items }
  | _ => failAt .nothingRepeated here here

/-! ## Whole patterns -/

/-- Takes up an escape outside of classes, or a character that stands for itself. -/
def Reading.addEscape (r : Reading) (span : Span) : Escape → Reading
  | .place p =>
    let isEdge := p ≠ .textStart && p ≠ .textEnd
    { r.add (.place p) with needsWords := r.needsWords || (isEdge && r.flags.unicode) }
  | .literal c isByte =>
    let kind? : Option FaultKind :=
      if r.flags.unicode then if r.flags.ignoresCase then some .caseUnavailable else none
      else if isByte && 128 ≤ c.toNat then some .matchesNoText
      else none
    let set := if r.flags.ignoresCase then CharSet.anyCase (.single c) else .single c
    (r.add (.char set)).withFault (kind?.map fun kind => ⟨kind, span, none⟩)
  | escape =>
    let (set, fault?) := escape.set r.flags span
    (r.add (.char set)).withFault fault?

/-- Takes up a dot at a place. -/
def Reading.addDot (r : Reading) (here : Nat) : Reading :=
  let excluded :=
    if r.flags.dotIsAny then []
    else if r.flags.crlf then ['\r', '\n']
    else ['\n']
  (r.add (.char (.complement (.ofList excluded)))).withFault
    (if r.flags.unicode then none else some ⟨.matchesNoText, ⟨here, here + 1⟩, none⟩)

def Reading.lineStart (r : Reading) : Place :=
  if !r.flags.multiLine then .textStart else if r.flags.crlf then .crlfLineStart else .lineStart

def Reading.lineEnd (r : Reading) : Place :=
  if !r.flags.multiLine then .textEnd else if r.flags.crlf then .crlfLineEnd else .lineEnd

/-- Reads the rest of a pattern. Each step takes a character. -/
def readParts (n : Nat) : (steps : Nat) → Reading → List Char → Except Fault Reading
  | 0, r, _ => .ok r
  | steps + 1, r, cs => do
    match skipSpaced r.flags cs with
    | [] => return r
    | c :: cs =>
      let here := n - (cs.length + 1)
      let repeatedAs (counts : Nat × Option Nat) : Except Fault Reading := do
        let rest := if cs.head? = some '?' then cs.drop 1 else cs
        readParts n steps (← r.repeatLast here counts) rest
      match c with
      | '(' =>
        let (r, rest) ← openGroup n r cs
        readParts n steps r rest
      | ')' => readParts n steps (← closeGroup n r cs) cs
      | '|' => readParts n steps { r with branches := r.branch :: r.branches, items := [] } cs
      | '[' =>
        let (inner, rest) ← openClass n r.flags ⟨[], .none, none⟩ cs
        let (inner, rest) ← readClass n r.flags (rest.length + 1) inner rest
        readParts n steps ((r.add (.char inner.found)).withFault inner.fault?) rest
      | '?' => repeatedAs (0, some 1)
      | '*' => repeatedAs (0, none)
      | '+' => repeatedAs (1, none)
      | '{' =>
        discard (r.repeatLast here (0, none))
        let (counts, rest) ← readCounts n cs
        readParts n steps (← r.repeatLast here counts) rest
      | '\\' =>
        let (escape, rest) ← readEscape n cs
        readParts n steps (r.addEscape ⟨here, n - rest.length⟩ escape) rest
      | '.' => readParts n steps (r.addDot here) cs
      | '^' => readParts n steps (r.add (.place r.lineStart)) cs
      | '$' => readParts n steps (r.add (.place r.lineEnd)) cs
      | c => readParts n steps (r.addEscape ⟨here, here + 1⟩ (.literal c false)) cs

/-- Why a text gives no pattern. -/
inductive Refusal where
  | fault (f : Fault)
  /-- It asks for the edges of words that are not only of ASCII. -/
  | noWords
  deriving DecidableEq, Repr

def Refusal.message (pattern : String) : Refusal → String
  | fault f => f.message pattern
  | noWords => "error building NFA"

/-- The pattern that a text describes. -/
def read (text : String) : Except Refusal Pattern := do
  let cs := text.toList
  let n := cs.length
  let r ← (readParts n (n + 1) {} cs).mapError .fault
  match r.groups, r.fault? with
  | g :: _, _ => .error (.fault ⟨.groupUnclosed, ⟨g.start, g.start + 1⟩, none⟩)
  | [], some f => .error (.fault f)
  | [], none => if r.needsWords then .error .noWords else .ok r.body

end TeImage.Text.Pattern
