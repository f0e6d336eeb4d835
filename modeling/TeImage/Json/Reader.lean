/-
Reading JSON text from left to right. A reader takes the text and gives a value and the text
behind it, or the first thing that is wrong: `ended`, the text stops too early; `malformed`, it is
no JSON text; `unsuitable`, it is JSON text so far but not for what is expected here.

The readers of this module are the parts that hold for every kind of value: blanks, words,
strings, numbers, and values that are passed over. A value that is kept and one that is passed
over differ in what they are checked for: a kept string must not hold half of a surrogate pair,
and a kept number must not be too large for a double.
-/
import TeImage.Json.Basic
import TeImage.Text.Numeral

namespace TeImage.Json

inductive Fault where
  | ended
  | malformed
  | unsuitable
  deriving DecidableEq, Repr

/-- The words for what is wrong with a text. -/
abbrev Wording := String → Fault → String

/-- Takes the text and gives the value read and the text behind it. -/
abbrev Reader (α : Type) := List Char → Except Fault (α × List Char)

/-! ## Blanks and words -/

def isBlank (c : Char) : Bool := c = ' ' || c = '\t' || c = '\n' || c = '\r'

def skipBlanks (cs : List Char) : List Char := cs.dropWhile isBlank

/-- The text behind `word`, which must stand at its start. -/
def skipWord : (word : List Char) → List Char → Except Fault (List Char)
  | [], cs => .ok cs
  | _ :: _, [] => .error .ended
  | w :: word, c :: cs => if w = c then skipWord word cs else .error .malformed

/-- The text behind the colon that parts the name of a member from its value. -/
def skipColon (cs : List Char) : Except Fault (List Char) :=
  match skipBlanks cs with
  | [] => .error .ended
  | ':' :: cs => .ok cs
  | _ :: _ => .error .malformed

/-! ## Strings -/

/-- The number that four hexadecimal digits write. -/
def hexValues? (a b c d : Char) : Option Nat := do
  let high := (← Text.hexValue? a) * 16 + (← Text.hexValue? b)
  let low := (← Text.hexValue? c) * 16 + (← Text.hexValue? d)
  return high * 256 + low

/-- What is wrong where four hexadecimal digits should stand: the text has ended if it has less
than four bytes left. -/
def missingDigits (cs : List Char) : Fault :=
  if (String.ofList cs).utf8ByteSize < 4 then .ended else .malformed

/-- The character that a backslash and `c` stand for. -/
def unescape? (c : Char) : Option Char :=
  if c = '"' ∨ c = '\\' ∨ c = '/' then some c
  else if c = 'b' then some '\x08'
  else if c = 'f' then some '\x0C'
  else if c = 'n' then some '\n'
  else if c = 'r' then some '\r'
  else if c = 't' then some '\t'
  else none

/-- What a code unit from an escape gives, when the high half `high?` of a surrogate pair may stand
before it. -/
inductive UnitStep where
  | char (c : Char)
  | high (unit : Nat)
  | lone

def unitStep (high? : Option Nat) (unit : Nat) : UnitStep :=
  let isLow := 0xDC00 ≤ unit ∧ unit ≤ 0xDFFF
  match high? with
  | none =>
    if isLow then .lone
    else if 0xD800 ≤ unit ∧ unit ≤ 0xDBFF then .high unit
    else .char (Char.ofNat unit)
  | some high =>
    if isLow then .char (Char.ofNat (0x10000 + (high - 0xD800) * 0x400 + (unit - 0xDC00)))
    else .lone

/-- The characters up to the closing quote and the text behind it. `high?` is the first half of a
surrogate pair, when one stands right before. -/
def stringRest (high? : Option Nat) : List Char → Except Fault (List Char × List Char)
  | [] => .error .ended
  | c :: cs =>
    if c = '\\' then
      match cs with
      | [] => .error .ended
      | e :: cs =>
        if e = 'u' then
          match cs with
          | a :: b :: c :: d :: cs =>
            match hexValues? a b c d with
            | none => .error .malformed
            | some unit =>
              match unitStep high? unit with
              | .lone => .error .malformed
              | .high unit => stringRest (some unit) cs
              | .char found => do
                let (found', rest) ← stringRest none cs
                return (found :: found', rest)
          | cs => .error (missingDigits cs)
        else if high?.isSome then .error .malformed
        else
          match unescape? e with
          | none => .error .malformed
          | some found => do
            let (found', rest) ← stringRest none cs
            return (found :: found', rest)
    else if high?.isSome then .error .malformed
    else if c = '"' then .ok ([], cs)
    else if c < ' ' then .error .malformed
    else do
      let (found', rest) ← stringRest none cs
      return (c :: found', rest)

/-- The string whose opening quote stands right before. -/
def stringBody : Reader String := fun cs => do
  let (found, rest) ← stringRest none cs
  return (String.ofList found, rest)

/-! ## Numbers -/

/-- The decimal digits at the start, and the text behind them. -/
def digits (cs : List Char) : List Char × List Char :=
  (cs.takeWhile Char.isDigit, cs.dropWhile Char.isDigit)

/-- What is wrong where a digit should stand. -/
def missingDigit : List Char → Fault
  | [] => .ended
  | _ :: _ => .malformed

/-- Digits, at least one. -/
def someDigits (cs : List Char) : Except Fault (List Char × List Char) :=
  match digits cs with
  | ([], rest) => .error (missingDigit rest)
  | found => .ok found

/-- The digits before the point: no digit may follow a leading zero. -/
def wholeDigits (cs : List Char) : Except Fault (List Char × List Char) := do
  let (found, rest) ← someDigits cs
  if found.head? = some '0' ∧ found.length ≠ 1 then .error .malformed
  else .ok (found, rest)

/-- The digits behind the point, none if there is no point. -/
def fractionDigits : List Char → Except Fault (List Char × List Char)
  | '.' :: cs => someDigits cs
  | cs => .ok ([], cs)

/-- The sign of the exponent and its digits, none if there is no exponent. -/
def exponentDigits (cs : List Char) : Except Fault ((Bool × List Char) × List Char) :=
  match cs with
  | c :: cs' =>
    if c = 'e' ∨ c = 'E' then
      let (negative, cs') : Bool × List Char :=
        match cs' with
        | '-' :: cs' => (true, cs')
        | '+' :: cs' => (false, cs')
        | cs' => (false, cs')
      match someDigits cs' with
      | .error fault => .error fault
      | .ok (found, rest) => .ok ((negative, found), rest)
    else .ok ((false, []), cs)
  | [] => .ok ((false, []), [])

/-- The written form of a number. -/
structure Numeral where
  negative : Bool
  whole : List Char
  /-- Whether there is a point. -/
  pointed : Bool
  fraction : List Char
  exponentNegative : Bool
  /-- Empty where there is no exponent. -/
  exponent : List Char

def digitValue (c : Char) : Nat := c.toNat - '0'.toNat

/-- The longest start of `cs` that goes on from `n` without passing the largest number of 64 bits:
the number and how many digits it takes. -/
def accumulate (n : Nat) : List Char → Nat × Nat
  | [] => (n, 0)
  | c :: cs =>
    let next := n * 10 + digitValue c
    if next < UInt64.size then
      let (value, count) := accumulate next cs
      (value, count + 1)
    else (n, 0)

/-- `n` rounded to 53 binary digits, ties to even. -/
def round53 (n : Nat) : Nat :=
  let unit := 1 <<< (n.log2 + 1 - 53)
  let low := n / unit
  let rest := n % unit
  if 2 * rest < unit ∨ (2 * rest = unit ∧ low % 2 = 0) then low * unit else (low + 1) * unit

/-- The least number that rounding to doubles takes beyond the largest of them. -/
def doubleLimit : Nat := 1 <<< 1024 - 1 <<< 970

/-- Whether `m * 10 ^ exponent` is too large for a double, both factors being rounded before they
are multiplied. -/
def exceedsDouble (m : Nat) (exponent : Int) : Bool :=
  m ≠ 0 &&
    match exponent with
    | .negSucc _ => false
    | .ofNat e => e > 308 || round53 m * round53 (Nat.pow 10 e) ≥ doubleLimit

namespace Numeral

/-- The number of a numeral without sign, point and exponent, if it has no more than 64 bits. -/
def word? (n : Numeral) : Option UInt64 :=
  if n.negative ∨ n.pointed ∨ n.exponent ≠ [] then none
  else
    let (value, taken) := accumulate 0 n.whole
    if taken = n.whole.length then some (UInt64.ofNat value) else none

/-- Whether the numeral stands for a number too large for a double. Only as many digits count as
fit into 64 bits; further ones before the point raise the exponent. Of the exponent as many digits
count, too: with these alone it passes every bound that the digits before it could set. -/
def tooLarge (n : Numeral) : Bool :=
  let (m, taken) := accumulate 0 n.whole
  let (m, fractionTaken) := accumulate m n.fraction
  let shift : Int := (n.whole.length - taken : Nat) - (fractionTaken : Nat)
  let (exponent, _) := accumulate 0 n.exponent
  if n.exponentNegative then exceedsDouble m (shift - exponent)
  else exceedsDouble m (shift + exponent)

end Numeral

/-- The numeral at the start, behind its sign. -/
def numeral (negative : Bool) : Reader Numeral := fun cs => do
  let (whole, cs) ← wholeDigits cs
  let pointed := cs.head? = some '.'
  let (fraction, cs) ← fractionDigits cs
  let ((exponentNegative, exponent), cs) ← exponentDigits cs
  let n : Numeral := { negative, whole, pointed, fraction, exponentNegative, exponent }
  if n.word?.isSome then return (n, cs)
  else if n.tooLarge then .error .malformed
  else return (n, cs)

/-- The fault of a value of another kind than expected. What of it must be read to tell its kind
must be well-formed. -/
def otherKind : List Char → Fault
  | [] => .ended
  | c :: cs =>
    let after {α : Type} (r : Except Fault α) : Fault :=
      match r with
      | .error fault => fault
      | .ok _ => .unsuitable
    if c = 'n' then after (skipWord ['u', 'l', 'l'] cs)
    else if c = 't' then after (skipWord ['r', 'u', 'e'] cs)
    else if c = 'f' then after (skipWord ['a', 'l', 's', 'e'] cs)
    else if c = '-' then after (numeral true cs)
    else if c.isDigit then after (numeral false (c :: cs))
    else if c = '"' then after (stringBody cs)
    else if c = '[' ∨ c = '{' then .unsuitable
    else .malformed

/-! ## Kept values without parts -/

/-- A string. -/
def text : Reader String := fun cs =>
  match skipBlanks cs with
  | [] => .error .ended
  | c :: cs => if c = '"' then stringBody cs else .error (otherKind (c :: cs))

/-- A whole number of 64 bits. -/
def count : Reader UInt64 := fun cs =>
  match skipBlanks cs with
  | [] => .error .ended
  | c :: cs =>
    if c.isDigit then do
      let (n, rest) ← numeral false (c :: cs)
      match n.word? with
      | some value => return (value, rest)
      | none => .error .unsuitable
    else .error (otherKind (c :: cs))

/-- The word `null`. -/
def nullWord : Reader Unit := fun cs =>
  match skipBlanks cs with
  | [] => .error .ended
  | c :: cs =>
    if c = 'n' then do
      let rest ← skipWord ['u', 'l', 'l'] cs
      return ((), rest)
    else .error (otherKind (c :: cs))

/-! ## Values that are passed over -/

/-- The text behind the closing quote of a string that is passed over. -/
def skipString : List Char → Except Fault (List Char)
  | [] => .error .ended
  | c :: cs =>
    if c = '\\' then
      match cs with
      | [] => .error .ended
      | e :: cs =>
        if e = 'u' then
          match cs with
          | a :: b :: c :: d :: cs =>
            if (hexValues? a b c d).isSome then skipString cs else .error .malformed
          | cs => .error (missingDigits cs)
        else if (unescape? e).isSome then skipString cs
        else .error .malformed
    else if c = '"' then .ok cs
    else if c < ' ' then .error .malformed
    else skipString cs

/-- The text behind a numeral that is passed over. Where a digit is missing it is malformed, even
at the end of the text. -/
def skipNumeral (cs : List Char) : Except Fault (List Char) :=
  let parts := do
    let (_, cs) ← wholeDigits cs
    let (_, cs) ← fractionDigits cs
    let (_, cs) ← exponentDigits cs
    return cs
  parts.mapError fun _ => .malformed

/-- The text behind a value that is not opened by a bracket. -/
def skipScalar (c : Char) (cs : List Char) : Except Fault (List Char) :=
  if c = 'n' then skipWord ['u', 'l', 'l'] cs
  else if c = 't' then skipWord ['r', 'u', 'e'] cs
  else if c = 'f' then skipWord ['a', 'l', 's', 'e'] cs
  else if c = '-' then skipNumeral cs
  else if c.isDigit then skipNumeral (c :: cs)
  else if c = '"' then skipString cs
  else .error .malformed

/-- An array or object that is not closed yet. -/
inductive Bracket where
  | square
  | curly
  deriving DecidableEq

def Bracket.closing : Bracket → Char
  | square => ']'
  | curly => '}'

/-- The text behind the name of a member and its colon. -/
def skipName (cs : List Char) : Except Fault (List Char) :=
  match skipBlanks cs with
  | [] => .error .ended
  | '"' :: cs => do skipColon (← skipString cs)
  | _ :: _ => .error .malformed

/-- What passing over a value waits for next. -/
inductive SkipState where
  /-- A value. -/
  | value
  /-- A value, or the end of the innermost bracket that was just opened. -/
  | first
  /-- A comma, or the end of the innermost bracket. -/
  | next

/-- Goes on at the first character of a value. -/
def skipOpening (opened : List Bracket) (c : Char) (cs : List Char) :
    Except Fault (SkipState × List Bracket × List Char) :=
  if c = '[' then .ok (.first, .square :: opened, cs)
  else if c = '{' then .ok (.first, .curly :: opened, cs)
  else do return (.next, opened, ← skipScalar c cs)

/-- Goes on behind the opening of a bracket or a comma, where a value or a member stands. -/
def skipItem (bracket : Bracket) (opened : List Bracket) (c : Char) (cs : List Char) :
    Except Fault (SkipState × List Bracket × List Char) :=
  match bracket with
  | .square => skipOpening (bracket :: opened) c cs
  | .curly => do return (.value, bracket :: opened, ← skipName (c :: cs))

/-- The text behind a value that stands inside the brackets `opened`, innermost first, and behind
all of these brackets. Each step but the last takes a character, so any text with one character more
may be the `bound`. -/
def skipWithin : (bound : List Char) → SkipState → (opened : List Bracket) → List Char →
    Except Fault (List Char)
  | [], _, _, _ => .error .ended
  | _ :: _, .next, [], cs => .ok cs
  | _ :: _, .first, [], cs => .ok cs
  | _ :: bound, .value, opened, cs =>
    match skipBlanks cs with
    | [] => .error .ended
    | c :: cs => do
      let (state, opened, rest) ← skipOpening opened c cs
      skipWithin bound state opened rest
  | _ :: bound, .first, bracket :: opened, cs =>
    match skipBlanks cs with
    | [] => .error .ended
    | c :: cs =>
      if c = bracket.closing then skipWithin bound .next opened cs
      else do
        let (state, opened, rest) ← skipItem bracket opened c cs
        skipWithin bound state opened rest
  | _ :: bound, .next, bracket :: opened, cs =>
    match skipBlanks cs with
    | [] => .error .ended
    | c :: cs =>
      if c = bracket.closing then skipWithin bound .next opened cs
      else if c = ',' then
        match bracket with
        | .square => skipWithin bound .value (bracket :: opened) cs
        | .curly => do skipWithin bound .value (bracket :: opened) (← skipName cs)
      else .error .malformed

/-- The text behind a value. -/
def skipValue (cs : List Char) : Except Fault (List Char) := skipWithin (' ' :: cs) .value [] cs

end TeImage.Json
