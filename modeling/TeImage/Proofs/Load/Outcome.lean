/-
How a load ends. Two looks at the data decide it: whether it starts like a Terse Executable, and
whether it is as long as its section table needs. Behind them the header is decoded, the layout is
found, every section record is decoded, and the type source cannot stop the load.
-/
import Mathlib.Tactic
import TeImage.Proofs.Layout.Membership
import TeImage.Proofs.Load.Run
import TeImage.Proofs.Section.Table

namespace TeImage

/-! ## The two looks -/

theorem isTerse_iff (data : Bytes) :
    isTerse data = true ↔ 40 ≤ data.length ∧ data.take 2 = [0x56, 0x5A] := by
  unfold isTerse Header.size Header.magic
  rw [Bool.and_eq_true, decide_eq_true_iff, decide_eq_true_iff]

/-- The section count that a header would have at the start of `data`. -/
def announcedSections (data : Bytes) : Nat := (data[4]?.getD 0).toNat

theorem slice_one {data : Bytes} {offset : Nat} (h : offset < data.length) :
    slice data offset 1 = [data[offset]] := by
  rw [slice, List.drop_eq_getElem_cons h]
  rfl

/-! ## The stages behind them -/

theorem parseHeader_ok {data : Bytes} (h : 40 ≤ data.length) :
    ∃ hd, parseHeader data = .ok hd ∧ hd.sectionCount.toNat = announcedSections data := by
  have count : slice data 4 1 = [data[4]] := slice_one (by omega)
  have byte : littleEndianValue [data[4]] = data[4].toNat := by
    rw [littleEndianValue, littleEndianValue]; omega
  rw [parseHeader, Header.decode?_eq (by rw [Header.size]; exact h)]
  refine ⟨_, rfl, ?_⟩
  show (UInt8.ofNat (littleEndianValue (slice data 4 1))).toNat = _
  rw [count, byte, UInt8.ofNat_toNat, announcedSections, List.getElem?_eq_getElem (by omega),
    Option.getD_some]

/-- What starts like a Terse Executable is long enough for a header. -/
theorem exists_header {data : Bytes} (terse : isTerse data = true) :
    ∃ h, parseHeader data = .ok h := by
  obtain ⟨h, hh, -⟩ := parseHeader_ok ((isTerse_iff data).1 terse).1
  exact ⟨h, hh⟩

/-- Data are refused at the first look, or they have a header. -/
theorem isTerse_cases (data : Bytes) :
    isTerse data = false ∨ isTerse data = true ∧ ∃ h, parseHeader data = .ok h := by
  cases terse : isTerse data with
  | false => exact .inl rfl
  | true => exact .inr ⟨rfl, exists_header terse⟩

theorem Layout.compute_error {h : Header} {length : Nat} (hl : length < h.headersSize) :
    Layout.compute h length =
      .error (.truncatedSectionTable h.sectionCount.toNat h.headersSize length) := by
  rw [compute, if_pos hl]

theorem Layout.compute_ok {h : Header} {length : Nat} (hl : h.headersSize ≤ length) :
    ∃ l, Layout.compute h length = .ok l := by
  rw [compute, if_neg (by omega)]
  exact ⟨_, rfl⟩

namespace Load

theorem plan_of_not_terse {data : Bytes} (source : TypeSource) (h : isTerse data = false) :
    plan data source = .error .notTerse := by
  rw [plan, h]
  rfl

theorem plan_of_truncated {data : Bytes} {hd : Header} (source : TypeSource)
    (ht : isTerse data = true) (hh : parseHeader data = .ok hd) (hl : data.length < hd.headersSize) :
    plan data source =
      .error (.truncatedSectionTable hd.sectionCount.toNat hd.headersSize data.length) := by
  rw [plan, ht, hh]
  show (Layout.compute hd data.length >>= _) = _
  rw [Layout.compute_error hl]
  rfl

theorem plan_of_fits {data : Bytes} {hd : Header} (source : TypeSource) (ht : isTerse data = true)
    (hh : parseHeader data = .ok hd) (hl : hd.headersSize ≤ data.length) :
    ∃ rs, plan data source = .ok rs := by
  obtain ⟨l, hlayout⟩ := Layout.compute_ok hl
  obtain ⟨sections, htable⟩ := ImageSection.table_ok hl
  rw [plan, ht, hh]
  show ∃ rs, (Layout.compute hd data.length >>= fun l => ImageSection.table data hd >>= _) = .ok rs
  rw [hlayout, htable]
  exact ⟨_, rfl⟩

end Load

/-! ## The outcome -/

/-- A load refuses data without a header and the mark `VZ`, then data that is too short for the
section table it announces, and nothing else. -/
theorem loadInto_outcome {σ : Type} [Sink σ] (data : Bytes) (source : TypeSource) (s : σ) :
    ((loadInto data source).runOn s).value.1 =
      if data.length < 40 ∨ data.take 2 ≠ [0x56, 0x5A] then .error .notTerse
      else if data.length < 40 + 40 * announcedSections data then
        .error (.truncatedSectionTable (announcedSections data) (40 + 40 * announcedSections data)
          data.length)
      else .ok () := by
  rw [loadInto_follows data source s]
  by_cases ht : data.length < 40 ∨ data.take 2 ≠ [0x56, 0x5A]
  · have refused : isTerse data = false := by
      rw [Bool.eq_false_iff, Ne, isTerse_iff, not_and_or, not_le]
      exact ht
    rw [if_pos ht, Load.plan_of_not_terse source refused]
  · obtain ⟨long, mark⟩ : 40 ≤ data.length ∧ data.take 2 = [0x56, 0x5A] := by
      rw [not_or, not_lt, not_not] at ht
      exact ht
    have terse : isTerse data = true := (isTerse_iff data).2 ⟨long, mark⟩
    obtain ⟨hd, hh, count⟩ := parseHeader_ok long
    rw [if_neg ht, ← count, ← hd.headersSize_eq]
    by_cases hl : data.length < hd.headersSize
    · rw [if_pos hl, Load.plan_of_truncated source terse hh hl]
    · obtain ⟨rs, hrs⟩ := Load.plan_of_fits source terse hh (not_lt.1 hl)
      rw [if_neg hl, hrs]

end TeImage
