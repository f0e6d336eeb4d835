/-
Which addresses the two regions of an image report. Addresses go round at `2 ^ 64`, so the place of
an address in an image is its distance upwards from the adjusted base. A region that ends below the
top of the address space reports exactly the addresses at its own distances; a region that reaches
the top, or goes round it, has its end at or before its start and reports none. So the regions
report the whole image exactly when the image ends below the top (`contains_iff_distance`).
-/
import Mathlib.Tactic
import TeImage.Layout

namespace TeImage

/-! ## One region -/

namespace Region

/-- The end of the region, as a number, is still an address. -/
def EndsBelowTop (r : Region) : Prop := r.start.toNat + r.size.toNat < 2 ^ 64

theorem contains_iff (r : Region) (a : UInt64) :
    r.contains a = true ↔ r.EndsBelowTop ∧ (a - r.start).toNat < r.size.toNat := by
  have := a.toNat_lt
  have := r.start.toNat_lt
  have := r.size.toNat_lt
  rw [contains, Bool.and_eq_true, decide_eq_true_iff, decide_eq_true_iff, stop, EndsBelowTop,
    UInt64.le_iff_toNat_le, UInt64.lt_iff_toNat_lt, UInt64.toNat_add, UInt64.toNat_sub]
  omega

end Region

/-! ## The place of the header -/

namespace Header

theorem headersSize_eq (h : Header) : h.headersSize = 40 + 40 * h.sectionCount.toNat := by
  unfold headersSize size sectionRecordSize
  omega

/-- The header lies where the image base is once the cut-off bytes are counted in and the header
itself is not. -/
theorem adjustedBase_eq (h : Header) :
    h.adjustedBase = h.imageBase + h.strippedSize.toUInt64 - 40 := by
  have := h.strippedSize.toNat_lt
  have offset : UInt64.ofInt h.headerOffset = h.strippedSize.toUInt64 - 40 := by
    apply UInt64.toNat_inj.1
    rw [UInt64.ofInt, UInt64.toNat_ofNat', UInt64.toNat_sub, headerOffset, size,
      UInt16.toNat_toUInt64]
    show _ = (2 ^ 64 - 40 + _) % _
    omega
  rw [adjustedBase, offset, UInt64.sub_eq_add_neg, UInt64.sub_eq_add_neg, UInt64.add_assoc]

end Header

/-! ## The regions of a layout -/

namespace Layout

/-- A layout is only computed for a file that holds its section table, and the two regions are
then given by the header and the length of the file. -/
theorem eq_of_compute {h : Header} {length : Nat} {l : Layout} (hl : compute h length = .ok l) :
    h.headersSize ≤ length ∧ l = {
      headerOffset := h.headerOffset
      headerRegion := ⟨h.adjustedBase, .ofNat h.headersSize, 0, .ofNat h.headersSize, .read⟩
      codeRegion := ⟨h.adjustedBase + .ofNat h.headersSize, .ofNat (length - h.headersSize),
        .ofNat h.headersSize, .ofNat (length - h.headersSize), .all⟩ } := by
  unfold compute at hl
  split at hl
  · cases hl
  · rename_i fits
    cases hl
    exact ⟨Nat.le_of_not_lt fits, rfl⟩

/-- How far an address lies behind the adjusted base of an image, counted upwards and round. -/
def distance (h : Header) (a : UInt64) : Nat := (a - h.adjustedBase).toNat

/-- Each address of an image of `length` bytes is reported by the region that its distance falls
into, and no other address is reported. -/
def ReportsWholeImage (l : Layout) (h : Header) (length : UInt64) : Prop :=
  ∀ a : UInt64,
    (l.headerRegion.contains a = true ↔ distance h a < h.headersSize) ∧
    (l.codeRegion.contains a = true ↔ h.headersSize ≤ distance h a ∧ distance h a < length.toNat)

section

variable {h : Header} {length : UInt64} {l : Layout}

theorem headerRegion_contains_iff (hl : compute h length.toNat = .ok l) (a : UInt64) :
    l.headerRegion.contains a = true ↔
      l.headerRegion.EndsBelowTop ∧ distance h a < h.headersSize := by
  obtain ⟨fits, rfl⟩ := eq_of_compute hl
  have := length.toNat_lt
  have small : h.headersSize % 2 ^ 64 = h.headersSize := Nat.mod_eq_of_lt (by omega)
  rw [Region.contains_iff, UInt64.toNat_ofNat', small, distance]

theorem codeRegion_contains_iff (hl : compute h length.toNat = .ok l) (a : UInt64) :
    l.codeRegion.contains a = true ↔
      l.codeRegion.EndsBelowTop ∧ h.headersSize ≤ distance h a ∧ distance h a < length.toNat := by
  obtain ⟨fits, rfl⟩ := eq_of_compute hl
  have := length.toNat_lt
  have := a.toNat_lt
  have := h.adjustedBase.toNat_lt
  -- below the header region the distance from the code region goes round
  have shift : (a - (h.adjustedBase + .ofNat h.headersSize)).toNat < length.toNat - h.headersSize ↔
      h.headersSize ≤ distance h a ∧ distance h a < length.toNat := by
    rw [distance, UInt64.toNat_sub, UInt64.toNat_sub, UInt64.toNat_add, UInt64.toNat_ofNat']
    omega
  have small : (length.toNat - h.headersSize) % 2 ^ 64 = length.toNat - h.headersSize :=
    Nat.mod_eq_of_lt (by omega)
  rw [Region.contains_iff, UInt64.toNat_ofNat', small, shift]

/-- Both regions end below the top just if the image does: the header region is never empty, and
an empty code region begins where the header region ends. -/
theorem endsBelowTop_iff (hl : compute h length.toNat = .ok l) :
    (l.headerRegion.EndsBelowTop ∧ l.codeRegion.EndsBelowTop) ↔
      h.adjustedBase.toNat + length.toNat < 2 ^ 64 := by
  obtain ⟨fits, rfl⟩ := eq_of_compute hl
  have := length.toNat_lt
  simp only [Region.EndsBelowTop, UInt64.toNat_add, UInt64.toNat_ofNat']
  omega

/-- The start of the header region, and that of a code region that is not empty, are reported only
if their region ends below the top. -/
theorem reportsWholeImage_iff (hl : compute h length.toNat = .ok l) :
    l.ReportsWholeImage h length ↔ h.adjustedBase.toNat + length.toNat < 2 ^ 64 := by
  rw [← endsBelowTop_iff hl]
  constructor
  · intro reports
    have table : 0 < h.headersSize := by unfold Header.headersSize Header.size; omega
    obtain ⟨fits, hregions⟩ := eq_of_compute hl
    have := length.toNat_lt
    constructor
    · have front : distance h h.adjustedBase = 0 := by rw [distance, UInt64.sub_self]; rfl
      have := (reports h.adjustedBase).1.2 (by rw [front]; exact table)
      exact ((headerRegion_contains_iff hl _).1 this).1
    · rcases Nat.eq_or_lt_of_le fits with full | more
      · rw [Region.EndsBelowTop, hregions, ← full, Nat.sub_self]
        exact UInt64.toNat_lt _
      · have front : distance h (h.adjustedBase + UInt64.ofNat h.headersSize) = h.headersSize := by
          rw [distance, UInt64.add_comm, UInt64.add_sub_cancel, UInt64.toNat_ofNat']
          exact Nat.mod_eq_of_lt (by omega)
        have := (reports (h.adjustedBase + UInt64.ofNat h.headersSize)).2.2
          (by rw [front]; exact ⟨Nat.le_refl _, more⟩)
        exact ((codeRegion_contains_iff hl _).1 this).1
  · rintro ⟨header, code⟩ a
    rw [headerRegion_contains_iff hl, codeRegion_contains_iff hl]
    exact ⟨and_iff_right header, and_iff_right code⟩

/-- A region reports the addresses whose distance lies in it, but none at all if it reaches the top
of the address space. Both regions report theirs exactly when the image ends below the top. -/
theorem contains_iff_distance (hl : compute h length.toNat = .ok l) :
    (∀ a : UInt64,
      (l.headerRegion.contains a = true ↔
        l.headerRegion.EndsBelowTop ∧ distance h a < h.headersSize) ∧
      (l.codeRegion.contains a = true ↔
        l.codeRegion.EndsBelowTop ∧ h.headersSize ≤ distance h a ∧
          distance h a < length.toNat)) ∧
    (l.ReportsWholeImage h length ↔ h.adjustedBase.toNat + length.toNat < 2 ^ 64) :=
  ⟨fun a => ⟨headerRegion_contains_iff hl a, codeRegion_contains_iff hl a⟩,
    reportsWholeImage_iff hl⟩

end

/-- An image of one section record and 20 more bytes. -/
theorem contains_iff_distance_low :
    let h : Header := ⟨Header.magic, 0x014C, 1, 0, 40, 0x10, 0, 0x1000, ⟨0, 0⟩, ⟨0, 0⟩⟩
    ∃ l, compute h (100 : UInt64).toNat = .ok l ∧ l.ReportsWholeImage h 100 :=
  ⟨_, rfl, (contains_iff_distance rfl).2.2 (by decide)⟩

/-- The same image at the top of the address space: no address goes round, but the code region
ends at the address 0 and reports none of them. -/
theorem not_reportsWholeImage_at_top :
    let h : Header := ⟨Header.magic, 0x014C, 1, 0, 40, 0x10, 0, 0xFFFFFFFFFFFFFF9C, ⟨0, 0⟩, ⟨0, 0⟩⟩
    ∃ l, compute h (100 : UInt64).toNat = .ok l ∧ ¬ l.ReportsWholeImage h 100 := by
  refine ⟨_, rfl, fun reports => ?_⟩
  have last := (reports 0xFFFFFFFFFFFFFFFF).2.2 (by decide)
  exact absurd last (by decide)

end Layout

end TeImage
