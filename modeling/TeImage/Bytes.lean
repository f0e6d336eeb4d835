/-
Byte strings, blocks of a fixed length, and little-endian numbers. Writing the number that a byte
string stands for gives the byte string back (`littleEndian_littleEndianValue`).
-/

namespace TeImage

/-- A byte string, first byte first. -/
abbrev Bytes := List UInt8

/-- A byte string of exactly `n` bytes. -/
abbrev Block (n : Nat) := { bs : Bytes // bs.length = n }

/-! ## Little-endian numbers -/

/-- The number that a byte string writes, least significant byte first. -/
def littleEndianValue : Bytes → Nat
  | [] => 0
  | b :: bs => b.toNat + 256 * littleEndianValue bs

/-- The `width` least significant base-256 digits of `n`, least significant first. -/
def littleEndian : (width n : Nat) → Bytes
  | 0, _ => []
  | width + 1, n => UInt8.ofNat n :: littleEndian width (n / 256)

@[simp] theorem length_littleEndian (width n : Nat) : (littleEndian width n).length = width := by
  induction width generalizing n with
  | zero => rfl
  | succ width ih => simp [littleEndian, ih]

/-- Reading a byte string and writing the number back in the same width gives the byte string. -/
theorem littleEndian_littleEndianValue (bs : Bytes) :
    littleEndian bs.length (littleEndianValue bs) = bs := by
  induction bs with
  | nil => rfl
  | cons b bs ih =>
    have hb := b.toNat_lt
    have hdiv : (b.toNat + 256 * littleEndianValue bs) / 256 = littleEndianValue bs := by omega
    have hmod : UInt8.ofNat (b.toNat + 256 * littleEndianValue bs) = b := by
      apply UInt8.toNat_inj.1
      rw [UInt8.toNat_ofNat']
      omega
    simp only [List.length_cons, littleEndian, littleEndianValue, hdiv, hmod, ih]

end TeImage
