/-
How the two regions of an image share out its file. Every byte of the file backs one of them, the
header region up to the end of the section table and the code region from there on (`backs_iff`).
In memory a byte lies as far behind the adjusted base as it lies behind the start of the file,
whatever goes round at `2 ^ 64` on the way (`place_eq`), so the one region ends where the other
starts. A region reports no address but those of its own bytes (`exists_backs_of_contains`), and so
no address is reported twice.
-/
import Mathlib.Tactic
import TeImage.Proofs.Load.Outcome

namespace TeImage

/-! ## One region -/

namespace Region

/-- The byte at offset `k` of the file is one of those that back the region. -/
def Backs (r : Region) (k : Nat) : Prop :=
  r.fileOffset.toNat ≤ k ∧ k < r.fileOffset.toNat + r.fileSize.toNat

/-- The address at which the region shows the byte at offset `k` of the file. -/
def place (r : Region) (k : Nat) : UInt64 := r.start + .ofNat (k - r.fileOffset.toNat)

/-- A region that is as large as what backs it reports only addresses at which it shows a byte. -/
theorem exists_backs_of_contains {r : Region} (size : r.size = r.fileSize) {a : UInt64}
    (ha : r.contains a = true) : ∃ k, r.Backs k ∧ a = r.place k := by
  obtain ⟨-, near⟩ := (contains_iff r a).1 ha
  refine ⟨r.fileOffset.toNat + (a - r.start).toNat, ⟨Nat.le_add_right _ _, ?_⟩, ?_⟩
  · rw [size] at near
    exact Nat.add_lt_add_left near _
  · rw [place, Nat.add_sub_cancel_left, UInt64.ofNat_toNat, UInt64.add_comm, UInt64.sub_add_cancel]

end Region

/-! ## The regions of a layout -/

namespace Layout

variable {h : Header} {length : UInt64} {l : Layout}

/-- The bytes before the end of the section table back the header region, the others back the code
region. -/
theorem backs_iff (hl : compute h length.toNat = .ok l) (k : Nat) :
    (l.headerRegion.Backs k ↔ k < h.headersSize) ∧
      (l.codeRegion.Backs k ↔ h.headersSize ≤ k ∧ k < length.toNat) := by
  obtain ⟨fits, rfl⟩ := eq_of_compute hl
  have := length.toNat_lt
  simp only [Region.Backs, UInt64.toNat_ofNat', UInt64.toNat_zero]
  omega

theorem size_eq_fileSize (hl : compute h length.toNat = .ok l) :
    ∀ r ∈ l.regions, r.size = r.fileSize := by
  obtain ⟨-, rfl⟩ := eq_of_compute hl
  simp [regions]

/-- The sizes are not rounded: nothing is lost when the table is taken off the length. -/
theorem size_add_size (hl : compute h length.toNat = .ok l) :
    l.headerRegion.size.toNat + l.codeRegion.size.toNat = length.toNat := by
  obtain ⟨fits, rfl⟩ := eq_of_compute hl
  have := length.toNat_lt
  rw [UInt64.toNat_ofNat', UInt64.toNat_ofNat']
  omega

theorem stop_headerRegion (hl : compute h length.toNat = .ok l) :
    l.headerRegion.stop = l.codeRegion.start := by
  obtain ⟨-, rfl⟩ := eq_of_compute hl
  rfl

/-- A byte lies as far behind the adjusted base as behind the start of the file. -/
theorem place_eq (hl : compute h length.toNat = .ok l) {r : Region} (hr : r ∈ l.regions) {k : Nat}
    (hk : r.Backs k) : r.place k = h.adjustedBase + .ofNat k := by
  obtain ⟨fits, rfl⟩ := eq_of_compute hl
  have := length.toNat_lt
  rcases List.mem_pair.1 hr with rfl | rfl
  · rfl
  · -- the length fits into 64 bits, and so does the part before the code region
    have offset : (UInt64.ofNat h.headersSize).toNat = h.headersSize := by
      rw [UInt64.toNat_ofNat']
      omega
    have behind : h.headersSize ≤ k := offset ▸ hk.1
    rw [Region.place, offset, UInt64.add_assoc, ← UInt64.ofNat_add, Nat.add_sub_cancel' behind]

/-- No address is reported by both regions: the one reports addresses nearer to the adjusted base
than the table is long, the other those that are not. -/
theorem contains_disjoint (hl : compute h length.toNat = .ok l) (a : UInt64) :
    ¬ (l.headerRegion.contains a = true ∧ l.codeRegion.contains a = true) := by
  rintro ⟨header, code⟩
  obtain ⟨-, near⟩ := (headerRegion_contains_iff hl a).1 header
  obtain ⟨-, far, -⟩ := (codeRegion_contains_iff hl a).1 code
  exact absurd near (Nat.not_lt.2 far)

/-- The two regions of a layout share out a file of `length` bytes. -/
structure PartitionsFile (l : Layout) (h : Header) (length : Nat) : Prop where
  /-- Each byte of the file backs one region and not the other. -/
  backs : ∀ k, k < length ↔ Xor (l.headerRegion.Backs k) (l.codeRegion.Backs k)
  size_eq : ∀ r ∈ l.regions, r.size = r.fileSize
  size_add : l.headerRegion.size.toNat + l.codeRegion.size.toNat = length
  /-- Each byte is shown at its place in the uncut image. -/
  place : ∀ r ∈ l.regions, ∀ k, r.Backs k → r.start + .ofNat (k - r.fileOffset.toNat) =
    h.imageBase + h.strippedSize.toUInt64 - 40 + .ofNat k
  stop_eq : l.headerRegion.stop = l.codeRegion.start
  disjoint : ∀ a, ¬ (l.headerRegion.contains a = true ∧ l.codeRegion.contains a = true)
  /-- What a region reports is the address of a byte that backs it. -/
  reported : ∀ r ∈ l.regions, ∀ a, r.contains a = true →
    ∃ k, r.Backs k ∧ a = h.adjustedBase + .ofNat k

/-- A layout is refused just if the file does not hold its section table, and otherwise the regions
share out the file. -/
theorem regions_partition_file (h : Header) (length : UInt64) :
    ((∃ e, compute h length.toNat = .error e) ↔
      length.toNat < 40 + 40 * h.sectionCount.toNat) ∧
    ∀ l, compute h length.toNat = .ok l → l.PartitionsFile h length.toNat := by
  refine ⟨?_, fun l hl => ?_⟩
  · rw [← h.headersSize_eq]
    constructor
    · rintro ⟨e, he⟩
      by_contra fits
      obtain ⟨l, hl⟩ := compute_ok (Nat.le_of_not_lt fits)
      cases hl.symm.trans he
    · intro short
      exact ⟨_, compute_error short⟩
  · have sizes := size_eq_fileSize hl
    refine {
      backs := fun k => ?_
      size_eq := sizes
      size_add := size_add_size hl
      place := fun r hr k hk => ?_
      stop_eq := stop_headerRegion hl
      disjoint := contains_disjoint hl
      reported := fun r hr a ha => ?_ }
    · obtain ⟨fits, -⟩ := eq_of_compute hl
      obtain ⟨header, code⟩ := backs_iff hl k
      rw [header, code, xor_def]
      omega
    · rw [← h.adjustedBase_eq]
      exact place_eq hl hr hk
    · obtain ⟨k, hk, rfl⟩ := Region.exists_backs_of_contains (sizes r hr) ha
      exact ⟨k, hk, place_eq hl hr hk⟩

/-- An image that claims to have lost nothing: its header lies below the image base, and so low
that the header region goes round the top of the address space. -/
theorem regions_partition_file_around_top :
    let h : Header := ⟨Header.magic, 0x014C, 1, 0, 0, 0x10, 0, 0x10, ⟨0, 0⟩, ⟨0, 0⟩⟩
    ∃ l, compute h (100 : UInt64).toNat = .ok l ∧ l.codeRegion.start < l.headerRegion.start ∧
      l.PartitionsFile h 100 :=
  ⟨_, rfl, by decide, (regions_partition_file _ 100).2 _ rfl⟩

end Layout

end TeImage
