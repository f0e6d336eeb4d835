/-
The section table of an image, told from its bytes: a file that is long enough is a header's worth
of bytes, the records of the table as they are written, and the rest (`table_eq_ok_iff`). So each
record stands at a place of its own, and is what the bytes there are decoded to
(`at?_of_holdsTable`), and nothing else in the file matters (`table_congr`).
-/
import Mathlib.Tactic
import TeImage.Proofs.Encoding

namespace TeImage

open Decoder

/-- Of values written in equal widths the later ones stand behind as many widths as there are
earlier ones. -/
theorem drop_flatten_map {α : Type} {encode : α → Bytes} {width : Nat}
    (hwidth : ∀ a, (encode a).length = width) (as : List α) (rest : Bytes) {i : Nat}
    (hi : i ≤ as.length) : ((as.map encode).flatten ++ rest).drop (i * width) =
      ((as.drop i).map encode).flatten ++ rest := by
  induction as generalizing i with
  | nil =>
    obtain rfl : i = 0 := by simpa using hi
    rw [Nat.zero_mul, List.drop_zero, List.drop_zero]
  | cons a as ih =>
    cases i with
    | zero => rw [Nat.zero_mul, List.drop_zero, List.drop_zero]
    | succ i =>
      have place : (i + 1) * width = (encode a).length + i * width := by
        rw [hwidth, Nat.succ_mul, Nat.add_comm]
      rw [place, List.map_cons, List.flatten_cons, List.append_assoc, List.drop_length_add_append,
        ih (Nat.le_of_succ_le_succ hi)]
      rfl

/-- The record with the given index, decoded from its own bytes in the section table. -/
def SectionRecord.at? (data : Bytes) (index : Nat) : Option SectionRecord :=
  let place := Header.size + index * Header.sectionRecordSize
  (decoder.run (slice data place Header.sectionRecordSize)).map (·.1)

namespace ImageSection

variable {data data' : Bytes} {h h' : Header} {records records' : List SectionRecord}

/-! ## Data that hold a table -/

/-- A byte string is a header's worth of bytes, the given records as they are written, and any
more. -/
def HoldsTable (data : Bytes) (records : List SectionRecord) : Prop :=
  ∃ front rest : Bytes, front.length = Header.size ∧
    data = front ++ ((records.map SectionRecord.encode).flatten ++ rest)

theorem length_encodings (records : List SectionRecord) :
    (records.map SectionRecord.encode).flatten.length =
      records.length * Header.sectionRecordSize := by
  induction records with
  | nil => rfl
  | cons r records ih =>
    rw [List.map_cons, List.flatten_cons, List.length_append, ih, SectionRecord.length_encode,
      List.length_cons, Nat.succ_mul, Nat.add_comm]

theorem holdsTable_iff : HoldsTable data records ↔ Header.size ≤ data.length ∧
    slice data Header.size (records.length * Header.sectionRecordSize) =
      (records.map SectionRecord.encode).flatten := by
  constructor
  · rintro ⟨front, rest, size, rfl⟩
    constructor
    · rw [List.length_append, size]
      omega
    · rw [slice, List.drop_left' size, List.take_left' (length_encodings records)]
  · rintro ⟨long, table⟩
    refine ⟨data.take Header.size,
      (data.drop Header.size).drop (records.length * Header.sectionRecordSize), ?_, ?_⟩
    · rw [List.length_take, Nat.min_eq_left long]
    · rw [← table, slice, List.take_append_drop, List.take_append_drop]

theorem HoldsTable.size_le (holds : HoldsTable data records) : Header.size ≤ data.length :=
  (holdsTable_iff.1 holds).1

theorem HoldsTable.headersSize_le (holds : HoldsTable data records)
    (count : records.length = h.sectionCount.toNat) : h.headersSize ≤ data.length := by
  obtain ⟨front, rest, size, rfl⟩ := holds
  rw [Header.headersSize, List.length_append, List.length_append, length_encodings, size, count]
  omega

/-- Data with the same bytes where the table stands hold the same table. -/
theorem HoldsTable.congr (holds : HoldsTable data records) (long : Header.size ≤ data'.length)
    (same : slice data 40 (40 * records.length) = slice data' 40 (40 * records.length)) :
    HoldsTable data' records := by
  rw [holdsTable_iff, Header.size, Header.sectionRecordSize, Nat.mul_comm] at holds ⊢
  exact ⟨long, same ▸ holds.2⟩

/-- Each record of a table is what its own bytes are decoded to, and all of them are needed. -/
theorem run_slice_of_holdsTable (holds : HoldsTable data records) {i : Nat}
    (hi : i < records.length) : SectionRecord.decoder.run
      (slice data (Header.size + i * Header.sectionRecordSize) Header.sectionRecordSize) =
        some (records[i], []) := by
  obtain ⟨front, rest, size, rfl⟩ := holds
  have place : (front ++ ((records.map SectionRecord.encode).flatten ++ rest)).drop
      (Header.size + i * Header.sectionRecordSize) =
        records[i].encode ++
          (((records.drop (i + 1)).map SectionRecord.encode).flatten ++ rest) := by
    rw [← size, List.drop_length_add_append,
      drop_flatten_map SectionRecord.length_encode _ _ (Nat.le_of_lt hi),
      List.drop_eq_getElem_cons hi, List.map_cons, List.flatten_cons, List.append_assoc]
  rw [slice, place, List.take_left' (SectionRecord.length_encode _)]
  exact (SectionRecord.inverts_decoder _ _ _).2 (List.append_nil _).symm

theorem at?_of_holdsTable (holds : HoldsTable data records) {i : Nat} (hi : i < records.length) :
    SectionRecord.at? data i = records[i]? := by
  rw [SectionRecord.at?, run_slice_of_holdsTable holds hi, Option.map_some,
    List.getElem?_eq_getElem hi]

/-- A table of a given number of records holds these records only. -/
theorem HoldsTable.unique (holds : HoldsTable data records) (holds' : HoldsTable data records')
    (hlength : records.length = records'.length) : records = records' := by
  apply List.ext_getElem?
  intro i
  by_cases hi : i < records.length
  · rw [← at?_of_holdsTable holds hi, at?_of_holdsTable holds' (hlength ▸ hi)]
  · rw [List.getElem?_eq_none (Nat.le_of_not_lt hi),
      List.getElem?_eq_none (hlength ▸ Nat.le_of_not_lt hi)]

/-! ## Reading a table -/

theorem run_tableDecoder_eq_some_iff {count : Nat} {rest : Bytes} :
    (tableDecoder count).run data = some (records, rest) ↔ records.length = count ∧
      ∃ front : Bytes, front.length = Header.size ∧
        data = front ++ ((records.map SectionRecord.encode).flatten ++ rest) := by
  rw [tableDecoder, (inverts_bytes Header.size).run_andThen_eq_some_iff]
  constructor
  · rintro ⟨front, behind, rfl, h⟩
    obtain ⟨count, rfl⟩ := SectionRecord.inverts_decoder.run_times_eq_some_iff.1 h
    exact ⟨count, front.1, front.2, rfl⟩
  · rintro ⟨count, front, size, rfl⟩
    refine ⟨⟨front, size⟩, _, rfl, ?_⟩
    exact SectionRecord.inverts_decoder.run_times_eq_some_iff.2 ⟨count, rfl⟩

/-- A table is given out just if the data holds it, and then as a section for each record. -/
theorem table_eq_ok_iff {sections : List ImageSection} :
    table data h = .ok sections ↔ ∃ records : List SectionRecord,
      records.length = h.sectionCount.toNat ∧ HoldsTable data records ∧
        sections = records.map (ofRecord · h.imageBase) := by
  unfold table
  constructor
  · intro found
    split at found
    · cases found
    · split at found
      · rename_i records rest hrun
        obtain ⟨count, front, size, hdata⟩ := run_tableDecoder_eq_some_iff.1 hrun
        cases found
        exact ⟨records, count, ⟨front, rest, size, hdata⟩, rfl⟩
      · cases found
  · rintro ⟨records, count, holds, rfl⟩
    have fits := holds.headersSize_le count
    obtain ⟨front, rest, size, hdata⟩ := holds
    rw [if_neg (Nat.not_lt.2 fits), run_tableDecoder_eq_some_iff.2 ⟨count, front, size, hdata⟩]

theorem table_error (short : data.length < h.headersSize) : table data h =
    .error (.truncatedSectionTable h.sectionCount.toNat h.headersSize data.length) := by
  rw [table, if_pos short]

/-- No record of a table that fits is cut off. -/
theorem table_ok (fits : h.headersSize ≤ data.length) : ∃ sections, table data h = .ok sections := by
  obtain ⟨records, hr⟩ := (hasWidth_tableDecoder h.sectionCount.toNat).run_eq_some fits
  rw [table, if_neg (by omega), hr]
  exact ⟨_, rfl⟩

theorem exists_holdsTable (fits : h.headersSize ≤ data.length) : ∃ records : List SectionRecord,
    records.length = h.sectionCount.toNat ∧ HoldsTable data records := by
  obtain ⟨sections, hsections⟩ := table_ok fits
  obtain ⟨records, count, holds, -⟩ := table_eq_ok_iff.1 hsections
  exact ⟨records, count, holds⟩

/-- A table that fits is the same in all data with the same bytes where it stands, for all headers
that announce as many records and have the same image base. -/
theorem table_congr (count : h'.sectionCount = h.sectionCount) (base : h'.imageBase = h.imageBase)
    (fits : h.headersSize ≤ data.length) (fits' : h.headersSize ≤ data'.length)
    (same : slice data 40 (40 * h.sectionCount.toNat) =
      slice data' 40 (40 * h.sectionCount.toNat)) : table data' h' = table data h := by
  obtain ⟨sections, hsections⟩ := table_ok fits
  obtain ⟨records, hcount, holds, rfl⟩ := table_eq_ok_iff.1 hsections
  have long : Header.size ≤ data'.length := (Nat.le_add_right _ _).trans fits'
  rw [hsections, table_eq_ok_iff]
  exact ⟨records, by rw [count, hcount], holds.congr long (hcount ▸ same), by rw [base]⟩

end ImageSection

end TeImage
