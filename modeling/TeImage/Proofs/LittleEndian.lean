/-
Little-endian numbers by powers of the base: a byte string of `n` bytes stands for a number below
`256 ^ n`, and writing a number keeps it modulo that power.
-/
import Mathlib.Tactic
import TeImage.Bytes

namespace TeImage

theorem littleEndianValue_lt (bs : Bytes) : littleEndianValue bs < 256 ^ bs.length := by
  induction bs with
  | nil => simp [littleEndianValue]
  | cons b bs ih =>
    have := b.toNat_lt
    simp only [littleEndianValue, List.length_cons, Nat.pow_succ]
    omega

/-- Writing a number and reading it back keeps what fits into the width. -/
theorem littleEndianValue_littleEndian (width n : Nat) :
    littleEndianValue (littleEndian width n) = n % 256 ^ width := by
  induction width generalizing n with
  | zero => simp [littleEndian, littleEndianValue, Nat.mod_one]
  | succ width ih =>
    have byte : (UInt8.ofNat n).toNat = n % 256 := UInt8.toNat_ofNat'
    rw [littleEndian, littleEndianValue, ih, byte, Nat.pow_succ, Nat.mul_comm _ 256, Nat.mod_mul]

end TeImage
