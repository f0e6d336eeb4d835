/-
Text in byte strings. A byte string falls into segments, from left to right: either the encoding
of one character, or a longest run of bytes that starts such an encoding and does not finish it
(a single byte, where no encoding starts with it). `decode?` accepts the byte strings that have
only segments of the first kind, `decodeLossy` puts U+FFFD for each of the second kind.
-/
import TeImage.Bytes

namespace TeImage.Utf8

/-- A text in bytes, character by character. -/
def encode (s : String) : Bytes := s.toList.flatMap String.utf8EncodeChar

/-- A range of byte values, ends included. -/
structure ByteRange where
  low : UInt8
  high : UInt8

def ByteRange.Mem (r : ByteRange) (b : UInt8) : Prop := r.low ≤ b ∧ b ≤ r.high

instance (r : ByteRange) (b : UInt8) : Decidable (r.Mem b) :=
  inferInstanceAs (Decidable (_ ∧ _))

/-- The range of a byte that goes on with a character. -/
def following : ByteRange := ⟨0x80, 0xBF⟩

/-- Where the bytes after `lead` must lie for the sequence to encode a character, or `none` if no
encoding starts with `lead`. The second byte is narrowed where a wider one would give an overlong
encoding, a surrogate, or a value above U+10FFFF. -/
def followers (lead : UInt8) : Option (List ByteRange) :=
  if lead ≤ 0x7F then some []
  else if lead < 0xC2 then none
  else if lead ≤ 0xDF then some [following]
  else if lead = 0xE0 then some [⟨0xA0, 0xBF⟩, following]
  else if lead = 0xED then some [⟨0x80, 0x9F⟩, following]
  else if lead ≤ 0xEF then some [following, following]
  else if lead = 0xF0 then some [⟨0x90, 0xBF⟩, following, following]
  else if lead ≤ 0xF3 then some [following, following, following]
  else if lead = 0xF4 then some [⟨0x80, 0x8F⟩, following, following]
  else none

/-- How many of the leading bytes lie in the ranges, taken in order. -/
def fitting : List ByteRange → Bytes → Nat
  | r :: rs, b :: bs => if r.Mem b then fitting rs bs + 1 else 0
  | _, _ => 0

/-- The bits of a lead byte that belong to the character, when `count` bytes follow it. -/
def leadBits (lead : UInt8) (count : Nat) : Nat :=
  match count with
  | 0 => lead.toNat
  | count + 1 => lead.toNat % (1 <<< (5 - count))

/-- The character of a lead byte and the bytes that follow it, six bits from each of these. -/
def character (lead : UInt8) (rest : Bytes) : Char :=
  Char.ofNat (rest.foldl (fun n b => n * 64 + b.toNat % 64) (leadBits lead rest.length))

/-- The first segment of `lead :: bs`: its character, if it has one, and how many bytes of `bs`
belong to it. -/
def segment (lead : UInt8) (bs : Bytes) : Option Char × Nat :=
  match followers lead with
  | none => (none, 0)
  | some ranges =>
    let count := fitting ranges bs
    (if count = ranges.length then some (character lead (bs.take count)) else none, count)

/-- The segments of a byte string from which `skip` bytes are passed over first. -/
def segmentsAfter : (skip : Nat) → Bytes → List (Option Char)
  | _, [] => []
  | skip + 1, _ :: bs => segmentsAfter skip bs
  | 0, lead :: bs =>
    let (found, count) := segment lead bs
    found :: segmentsAfter count bs

/-- The segments of a byte string, each with its character if it has one. -/
def segments (bs : Bytes) : List (Option Char) := segmentsAfter 0 bs

/-- The text that a byte string encodes, if it is well-formed. -/
def decode? (bs : Bytes) : Option String := ((segments bs).mapM id).map String.ofList

/-- The text of a byte string, with U+FFFD for each segment that encodes nothing. -/
def decodeLossy (bs : Bytes) : String :=
  String.ofList ((segments bs).map (·.getD '\uFFFD'))

end TeImage.Utf8
