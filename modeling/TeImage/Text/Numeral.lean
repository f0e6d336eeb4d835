/-
Numbers as text: hexadecimal digits, hexadecimal with a leading `0x`, and text filled up to a width.
-/

namespace TeImage.Text

/-- Hexadecimal digits in lower case, without leading zeros. -/
def hexDigits (n : Nat) : List Char := Nat.toDigits 16 n

/-- The value of a hexadecimal digit, in letters of either case. -/
def hexValue? (c : Char) : Option Nat :=
  if '0' ≤ c ∧ c ≤ '9' then some (c.toNat - '0'.toNat)
  else if 'a' ≤ c ∧ c ≤ 'f' then some (c.toNat - 'a'.toNat + 10)
  else if 'A' ≤ c ∧ c ≤ 'F' then some (c.toNat - 'A'.toNat + 10)
  else none

/-- `n` in hexadecimal, marked by `0x`. -/
def hex (n : Nat) : String := "0x" ++ String.ofList (hexDigits n)

/-- `n` in hexadecimal with at least `digits` digits, marked by `0x`. -/
def hexPadded (digits n : Nat) : String :=
  let ds := hexDigits n
  "0x" ++ String.ofList (List.replicate (digits - ds.length) '0' ++ ds)

/-- `s` filled up with blanks on the right to `width` characters. -/
def padRight (width : Nat) (s : String) : String := s.pushn ' ' (width - s.length)

end TeImage.Text
