/-
Patterns of text, and which texts hold a part that is of a pattern.

A pattern is matched by moving marks over the places of a text, one before each character and one
behind the last: from the marks where a part may start to those where it may end. All parts are
followed at once, so the number of marks is bounded by the text and not by the ways to read it.
-/

namespace TeImage.Text

/-- A set of characters. -/
inductive CharSet where
  | none
  | range (first last : Char)
  | union (a b : CharSet)
  | intersection (a b : CharSet)
  | difference (a b : CharSet)
  /-- What lies in one of two sets alone. -/
  | either (a b : CharSet)
  | complement (a : CharSet)
  /-- What lies in a set when written in small or in capital letters. -/
  | anyCase (a : CharSet)

namespace CharSet

def has : CharSet → Char → Bool
  | none, _ => false
  | range first last, c => first ≤ c && c ≤ last
  | union a b, c => a.has c || b.has c
  | intersection a b, c => a.has c && b.has c
  | difference a b, c => a.has c && !b.has c
  | either a b, c => a.has c != b.has c
  | complement a, c => !a.has c
  | anyCase a, c => a.has c || a.has c.toLower || a.has c.toUpper

def single (c : Char) : CharSet := range c c

def ofList (cs : List Char) : CharSet := cs.foldr (fun c a => union (single c) a) none

end CharSet

/-- A word is made of letters, digits and underscores. -/
def isWordChar (c : Char) : Bool := c.isAlphanum || c = '_'

/-- Conditions on a place between two characters. -/
inductive Place where
  | textStart
  | textEnd
  | lineStart
  | lineEnd
  /-- As the start of a line, which a carriage return ends too. -/
  | crlfLineStart
  /-- As the end of a line, which a carriage return ends too. -/
  | crlfLineEnd
  | wordEdge
  | noWordEdge
  | wordStart
  | wordEnd
  /-- No word goes on from before. -/
  | wordStartHalf
  /-- No word goes on behind. -/
  | wordEndHalf
  deriving DecidableEq

namespace Place

/-- Whether the place between two characters is of a kind; there is no character before the first
place and none behind the last. -/
def holds (p : Place) (before? after? : Option Char) : Bool :=
  let wordBefore := before?.any isWordChar
  let wordAfter := after?.any isWordChar
  match p with
  | textStart => before?.isNone
  | textEnd => after?.isNone
  | lineStart => before?.all (· = '\n')
  | lineEnd => after?.all (· = '\n')
  | crlfLineStart =>
    before?.all fun c => c = '\n' || (c = '\r' && after? ≠ some '\n')
  | crlfLineEnd =>
    after?.all fun c => c = '\r' || (c = '\n' && before? ≠ some '\r')
  | wordEdge => wordBefore != wordAfter
  | noWordEdge => wordBefore == wordAfter
  | wordStart => !wordBefore && wordAfter
  | wordEnd => wordBefore && !wordAfter
  | wordStartHalf => !wordBefore
  | wordEndHalf => !wordAfter

end Place

inductive Pattern where
  | empty
  | char (set : CharSet)
  | place (p : Place)
  | sequence (a b : Pattern)
  | choice (a b : Pattern)
  /-- One behind the other, `least` times or more often; `most?` is the upper limit if there is
  one. -/
  | repeated (a : Pattern) (least : Nat) (most? : Option Nat)

namespace Pattern

/-- The places of a text that are marked, one more than it has characters. -/
abbrev Marks := List Bool

/-- Applies `f` as often as `steps` says, or until it changes nothing. -/
def iterate (f : Marks → Marks) : (steps : Nat) → Marks → Marks
  | 0, m => m
  | steps + 1, m =>
    let next := f m
    if next = m then m else iterate f steps next

/-- The places where a part may end that starts at one of the marks. Moving marks more often than
there are places changes nothing any more, since no part ends before it starts. -/
def ends (cs : List Char) : Pattern → Marks → Marks
  | empty, m => m
  | char set, m => false :: cs.zipWith (fun c marked => marked && set.has c) m
  | place p, m =>
    let around := (none :: cs.map some).zip (cs.map some ++ [none])
    m.zipWith (fun marked (before?, after?) => marked && p.holds before? after?) around
  | sequence a b, m => ends cs b (ends cs a m)
  | choice a b, m => (ends cs a m).zipWith or (ends cs b m)
  | repeated a least most?, m =>
    let places := cs.length + 1
    let further := match most? with
      | some most => min (most - least) places
      | none => places
    let first := iterate (ends cs a) (min least places) m
    iterate (fun m => m.zipWith or (ends cs a m)) further first

/-- Whether a part of the text is of the pattern. -/
def occursIn (p : Pattern) (text : String) : Bool :=
  let cs := text.toList
  (p.ends cs (List.replicate (cs.length + 1) true)).any id

end Pattern

end TeImage.Text
