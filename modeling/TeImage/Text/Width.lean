/-
How many columns a line takes when it is shown. A character that stands alone takes none if it is a
mark or not shown, two if it is wide or a picture, and one otherwise. Where neighbours are shown as
one the columns are those of the shape that they form: pictures joined by U+200D, pictures with a
skin tone, flags, and the ligatures of several scripts.

The line is read from its end, since it is what stands behind a character that decides on its shape:
each step takes a character and what is known of the text behind it.
-/
import TeImage.Text.Width.Ranges

namespace TeImage.Text

namespace Width

/-! ## Kinds of characters -/

/-- Whether `n` lies in one of the ranges with an index from `low` on and below `high`. The ranges
ascend, so each of the at most `steps` steps halves what is left. -/
def inRanges (ranges : Array (Nat × Nat)) (n : Nat) : (steps low high : Nat) → Bool
  | 0, _, _ => false
  | steps + 1, low, high =>
    if low < high then
      let middle := (low + high) / 2
      match ranges[middle]? with
      | none => false
      | some (first, last) =>
        if n < first then inRanges ranges n steps low middle
        else if last < n then inRanges ranges n steps (middle + 1) high
        else true
    else false

/-- Whether `c` lies in one of the ranges. -/
def among (ranges : Array (Nat × Nat)) (c : Char) : Bool :=
  inRanges ranges c.toNat (ranges.size + 1) 0 ranges.size

def between (first last : Nat) (c : Char) : Bool := first ≤ c.toNat && c.toNat ≤ last

/-- The joiner of pictures and letters. -/
def joiner : Char := '\u200D'

/-- Asks for the form of a sign. -/
def signSelector : Char := '\uFE0E'

/-- Asks for the form of a picture. -/
def pictureSelector : Char := '\uFE0F'

/-- A skin tone. -/
def isTone : Char → Bool := between 0x1F3FB 0x1F3FF

/-- One of the letters of which two make a flag. -/
def isFlagLetter : Char → Bool := between 0x1F1E6 0x1F1FF

/-- A picture that the sign selector turns into a sign of one column. -/
def isSignable (c : Char) : Bool :=
  among variedRanges c && among pictureRanges c && !between 0x1F200 0x1F2FF c

/-- A quotation mark that U+FE01 makes wide. -/
def isQuotationMark (c : Char) : Bool :=
  c = '\u2018' || c = '\u2019' || c = '\u201C' || c = '\u201D'

/-- An Arabic letter of the shape of alef. -/
def isAlef (c : Char) : Bool :=
  between 0x622 0x623 c || c.toNat = 0x625 || c.toNat = 0x627 || between 0x671 0x673 c ||
    c.toNat = 0x675 || between 0x773 0x774 c || between 0x870 0x882 c

/-- An Arabic letter of the shape of lam. -/
def isLam (c : Char) : Bool :=
  c.toNat = 0x644 || between 0x6B5 0x6B8 c || c.toNat = 0x76A || c.toNat = 0x8A6 || c.toNat = 0x8C7

/-- A Tifinagh letter that can be joined to another. -/
def isTifinagh (c : Char) : Bool := between 0x2D31 0x2D65 c || c.toNat = 0x2D6F

/-- A character that parts the letters beside it, so that these are not joined. -/
def isUnjoining (c : Char) : Bool := !(among zeroRanges c && !among partingRanges c)

/-- A character without columns that other scripts than Arabic let pass between two letters of a
ligature. -/
def isPassed (c : Char) : Bool :=
  c.toNat = 0x34F || between 0x17B4 0x17B5 c || between 0x180B 0x180D c || c.toNat = 0x180F ||
    between 0xFE00 0xFE0F c || between 0xE0100 0xE01EF c

/-- The columns of a character that stands alone. -/
def ofChar (c : Char) : Nat :=
  if ' ' ≤ c ∧ c ≤ '~' then 1
  else if among zeroRanges c then 0
  else if among wideRanges c then 2
  else 1

/-! ## What stands behind a character -/

/-- A letter that may form a ligature with what stands before it. -/
inductive Ligature where
  | lamed
  | khmer
  | ya
  /-- A joiner and ya, with the vowel sign before them. -/
  | yaWithVowel
  | tifinagh
  /-- A Tifinagh letter with the sign that joins it. -/
  | tifinaghWithSign
  /-- The second of two Lisu tone letters. -/
  | lisuTone
  | orkhon
  deriving DecidableEq

/-- What the text behind a character starts with, as far as it bears on the character. -/
inductive Follower where
  | other
  /-- The mark that makes quotation marks wide. -/
  | wideMark
  | tone
  | picture
  | flagLetter
  | flagLetters
  /-- A joiner and a picture. -/
  | joinedPicture
  /-- The sign of a key, a joiner and a picture. -/
  | joinedKey
  /-- A flag letter, a joiner and a picture. -/
  | joinedFlagLetter
  /-- Two, four or more flag letters, a joiner and a picture. -/
  | joinedEvenLetters
  /-- Three, five or more flag letters, a joiner and a picture. -/
  | joinedOddLetters
  /-- Tag letters and tag digits before them, the end of the tag, a joiner and a picture. -/
  | joinedTag (letters digits : Nat)
  | alef
  /-- A letter, and whether a joiner stands before it. -/
  | ligature (l : Ligature) (joined : Bool)
  /-- The first of the Kirat Rai vowel signs that are made of one another. -/
  | vowelE
  /-- The second of them. -/
  | vowelAi
  deriving DecidableEq

/-- What stands behind a character, and the selectors in between. -/
structure Behind where
  follower : Follower
  asSign : Bool := false
  asPicture : Bool := false
  deriving DecidableEq

namespace Follower

/-- Letters are still joined when a selector stands between them. -/
def isLetter : Follower → Bool
  | alef | ligature .. => true
  | _ => false

def isJoinedEmoji : Follower → Bool
  | joinedPicture | joinedKey => true
  | _ => false

end Follower

namespace Behind

/-- Puts the sign selector before. -/
def selectSign (b : Behind) : Behind :=
  if b.follower.isLetter then { b with asSign := true } else ⟨.other, true, false⟩

/-- Puts the picture selector before. -/
def selectPicture (b : Behind) : Behind :=
  if b.follower.isLetter then { b with asPicture := true }
  else if b.follower.isJoinedEmoji then ⟨b.follower, false, true⟩
  else ⟨.other, false, true⟩

/-- Passes over the picture selector, which has nothing to select. -/
def dropPicture (b : Behind) : Behind :=
  if !b.asPicture then b
  else if b.follower.isLetter then { b with asPicture := false }
  else ⟨.other, false, false⟩

end Behind

/-! ## Steps -/

/-- A joined tag before which another of its characters stands. Regions have three to six letters,
or letters and three digits. -/
def tagStep? (letters digits : Nat) (c : Char) : Option (Int × Follower) :=
  if between 0xE0061 0xE007A c ∧ digits = 0 ∧ letters ≤ 5 then
    some (0, .joinedTag (letters + 1) 0)
  else if between 0xE0030 0xE0039 c ∧ digits < 3 ∧ (0 < digits ∨ letters ≤ 4) then
    some (0, .joinedTag letters (digits + 1))
  else if c.toNat = 0x1F3F4 ∧ (digits = 3 ∨ (digits = 0 ∧ 3 ≤ letters)) then some (0, .picture)
  else none

/-- What a letter adds to the columns when it forms a ligature with what stands behind it. -/
def ligatureStep? (l : Ligature) (joined : Bool) (c : Char) : Option (Int × Follower) :=
  match l with
  | .lamed => if joined ∧ c.toNat = 0x5D0 then some (0, .other) else none
  | .khmer => if c.toNat = 0x17D2 then some (-1, .other) else none
  | .ya => if joined ∧ c.toNat = 0x1A17 then some (0, .ligature .yaWithVowel true) else none
  | .yaWithVowel => if c.toNat = 0x1A15 then some (0, .other) else none
  | .tifinagh =>
    if c.toNat = 0x2D7F then some (1, .ligature .tifinaghWithSign true)
    else if joined ∧ isTifinagh c then some (0, .other)
    else none
  | .tifinaghWithSign => if isTifinagh c then some (-1, .other) else none
  | .lisuTone => if between 0xA4F8 0xA4FB c then some (0, .other) else none
  | .orkhon => if joined ∧ c.toNat = 0x10C32 then some (0, .other) else none

/-- What a character adds to the columns when it is shown as one with what stands behind it. -/
def shapeStep? (f : Follower) (c : Char) : Option (Int × Follower) :=
  match f with
  | .other => none
  | .wideMark => if isQuotationMark c then some (2, .other) else none
  | .tone =>
    if c = joiner then some (0, .joinedPicture)
    else if among tonedRanges c then some (0, .picture)
    else none
  | .picture => if c = joiner then some (0, .joinedPicture) else none
  | .flagLetter => if isFlagLetter c then some (1, .flagLetters) else none
  | .flagLetters =>
    if c = joiner then some (0, .joinedPicture)
    else if isFlagLetter c then some (1, .flagLetters)
    else none
  | .joinedPicture =>
    if c.toNat = 0x20E3 then some (0, .joinedKey)
    else if isFlagLetter c then some (1, .joinedFlagLetter)
    else if isTone c then some (0, .tone)
    else if c.toNat = 0xE007F then some (0, .joinedTag 0 0)
    else if among pictureRanges c then some (0, .picture)
    else none
  | .joinedKey => none
  | .joinedFlagLetter =>
    if c = joiner then some (0, .joinedPicture)
    else if isFlagLetter c then some (-1, .joinedEvenLetters)
    else none
  | .joinedEvenLetters =>
    if c = joiner then some (0, .joinedPicture)
    else if isFlagLetter c then some (3, .joinedOddLetters)
    else none
  | .joinedOddLetters => if isFlagLetter c then some (-1, .joinedEvenLetters) else none
  | .joinedTag letters digits => tagStep? letters digits c
  | .alef =>
    if isLam c then some (0, .other) else if isUnjoining c then none else some (0, .alef)
  | .ligature l joined => ligatureStep? l joined c
  | .vowelE =>
    if c.toNat = 0x16D63 ∨ c.toNat = 0x16D69 then some (0, .other)
    else if c.toNat = 0x16D67 then some (0, .vowelAi)
    else if c.toNat = 0x16D68 then some (1, .vowelE)
    else none
  | .vowelAi => if c.toNat = 0x16D63 then some (0, .other) else none

/-- The columns of a character that is not shown as one with what stands behind it, and what it is
for the character before. -/
def aloneStep (c : Char) : Int × Follower :=
  let n := c.toNat
  if isAlef c then (1, .alef)
  else if n = 0x5DC then (1, .ligature .lamed false)
  else if among khmerRanges c then (1, .ligature .khmer true)
  else if n = 0x17A4 then (2, .other)
  else if n = 0x17D8 then (3, .other)
  else if n = 0x1A10 then (1, .ligature .ya false)
  else if isTifinagh c then (1, .ligature .tifinagh false)
  else if between 0xA4FC 0xA4FD c then (1, .ligature .lisuTone true)
  else if n = 0xFE01 then (0, .wideMark)
  else if n = 0x10C03 then (1, .ligature .orkhon false)
  else if n = 0x16D67 then (1, .vowelE)
  else if n = 0x16D68 then (1, .vowelAi)
  else if isFlagLetter c then (1, .flagLetter)
  else if isTone c then (2, .tone)
  else if among pictureRanges c then (2, .picture)
  else (ofChar c, .other)

/-- What passes between the letters of a ligature leaves `b` as it is, or joined. -/
def passStep? (b : Behind) (c : Char) : Option Behind :=
  match b.follower with
  | .ligature l _ =>
    if c = joiner then some { b with follower := .ligature l true }
    else if isPassed c then some b
    else none
  | _ => none

/-- What a character adds to the columns of what stands behind it. -/
def step (c : Char) (b : Behind) : Int × Behind :=
  if b.asPicture && among variedRanges c then
    (if b.follower.isJoinedEmoji then 0 else 2, ⟨.picture, false, false⟩)
  else
    let b := b.dropPicture
    if c ≤ '\u00A0' then (1, ⟨.other, false, false⟩)
    else if c = pictureSelector then (0, b.selectPicture)
    else if c = signSelector then (0, b.selectSign)
    else if b.asSign && isSignable c then (1, ⟨.other, false, false⟩)
    else
      let b := { b with asSign := false }
      match passStep? b c with
      | some b => (0, b)
      | none =>
        let (columns, follower) := (shapeStep? b.follower c).getD (aloneStep c)
        (columns, ⟨follower, false, false⟩)

/-- The columns of a text, and what it is for the character before. -/
def ofText (cs : List Char) : Int × Behind :=
  cs.foldr (fun c (columns, b) => let (more, b) := step c b; (columns + more, b))
    (0, ⟨.other, false, false⟩)

end Width

/-- The columns of a line. -/
def width (line : List Char) : Nat := (Width.ofText line).1.toNat

end TeImage.Text
