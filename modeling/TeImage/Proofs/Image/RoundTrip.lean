/-
Whole images written and read back. An image is its header, its section records and a payload, one
behind the other; loading what was written so gives these records back, and every file that loads
is what its header, the records of its sections and the bytes behind its table are written as
(`image_round_trip`).
-/
import Mathlib.Tactic
import TeImage.Proofs.Image.Contents
import TeImage.Proofs.Records

namespace TeImage

/-! ## Images as they are written -/

/-- A header, section records and a payload, written one behind the other. -/
def writeImage (h : Header) (records : List SectionRecord) (payload : Bytes) : Bytes :=
  Header.format.toBytes h ++ ((records.map SectionRecord.format.toBytes).flatten ++ payload)

/-- Each record is written as its fields are, one behind the other. -/
theorem writeImage_eq (h : Header) (records : List SectionRecord) (payload : Bytes) :
    writeImage h records payload =
      h.encode ++ ((records.map SectionRecord.encode).flatten ++ payload) := by
  have header : Header.format.toBytes h = h.encode := Header.coherent_format.toBytes_eq h
  have record : SectionRecord.format.toBytes = SectionRecord.encode :=
    funext SectionRecord.coherent_format.toBytes_eq
  rw [writeImage, header, record]

theorem holdsTable_writeImage (h : Header) (records : List SectionRecord) (payload : Bytes) :
    ImageSection.HoldsTable (writeImage h records payload) records :=
  ⟨h.encode, payload, h.length_encode, writeImage_eq h records payload⟩

theorem decode?_writeImage (h : Header) (records : List SectionRecord) (payload : Bytes) :
    Header.decode? (writeImage h records payload) = some h := by
  rw [Header.decode?, writeImage_eq, Header.inverts_decoder.run_append, Option.map_some]

theorem isTerse_writeImage {h : Header} (hmagic : h.signature = Header.magic)
    (records : List SectionRecord) (payload : Bytes) :
    isTerse (writeImage h records payload) = true := by
  have size := h.length_encode
  rw [isTerse_iff]
  constructor
  · rw [writeImage_eq, List.length_append, size, Header.size]
    omega
  · rw [writeImage_eq, Header.encode_append, hmagic]
    rfl

theorem headersSize_le_writeImage {h : Header} {records : List SectionRecord}
    (hcount : records.length = h.sectionCount.toNat) (payload : Bytes) :
    h.headersSize ≤ (writeImage h records payload).length := by
  rw [Header.headersSize, writeImage_eq, List.length_append, List.length_append, h.length_encode,
    ImageSection.length_encodings, hcount]
  omega

/-- A byte string that starts with a header and holds a table is written from these two and what
stands behind the table. -/
theorem eq_writeImage {data : Bytes} {h : Header} {records : List SectionRecord}
    (hdecode : Header.decode? data = some h) (hcount : records.length = h.sectionCount.toNat)
    (holds : ImageSection.HoldsTable data records) :
    data = writeImage h records (data.drop h.headersSize) := by
  obtain ⟨front, rest, size, rfl⟩ := holds
  rw [Header.decode?, Option.map_eq_some_iff] at hdecode
  obtain ⟨⟨h', behind⟩, hrun, hh⟩ := hdecode
  obtain rfl : h' = h := hh
  have written := (Header.inverts_decoder _ _ _).1 hrun
  have header := List.append_inj_left written (by rw [size, Header.length_encode])
  have tableSize : h'.headersSize =
      (front ++ (records.map SectionRecord.encode).flatten).length := by
    rw [Header.headersSize, List.length_append, size, ImageSection.length_encodings, hcount]
  rw [tableSize, ← List.append_assoc, List.drop_left, header, writeImage_eq, List.append_assoc]

/-! ## Loading -/

theorem records_of_load {h : Header} {records : List SectionRecord} {extra : List TypeDef}
    {length : Nat} :
    (Sink.registerAll Image.empty (Load.calls h records extra length)).sections.map (·.record) =
      records := by
  rw [Image.sections_registerAll, Load.imageSection?_calls]
  rw [Image.empty, List.nil_append, List.map_map]
  exact List.map_id' records

/-- What is written from a header with the mark of a Terse Executable, as many section records as
it announces and any payload is loaded as just these; and whatever is loaded was written from the
header and the section records that it gives. -/
theorem image_round_trip (source : TypeSource) :
    (∀ (h : Header) (records : List SectionRecord) (payload : Bytes),
      h.signature = Header.magic → records.length = h.sectionCount.toNat →
        let data := Header.format.toBytes h ++
          ((records.map SectionRecord.format.toBytes).flatten ++ payload)
        ∃ image, (load data source).value = .ok image ∧ parseHeader data = .ok h ∧
          image.sections.map (·.record) = records) ∧
    ∀ (data : Bytes) (image : Image), (load data source).value = .ok image →
      ∃ h, parseHeader data = .ok h ∧
        Header.format.toBytes h ++
          (((image.sections.map (·.record)).map SectionRecord.format.toBytes).flatten ++
            data.drop (40 + 40 * h.sectionCount.toNat)) = data := by
  constructor
  · intro h records payload hmagic hcount
    show ∃ image, (load (writeImage h records payload) source).value = .ok image ∧
      parseHeader (writeImage h records payload) = .ok h ∧ image.sections.map (·.record) = records
    have hparse : parseHeader (writeImage h records payload) = .ok h := by
      rw [parseHeader, decode?_writeImage]
    obtain ⟨rs, hplan⟩ := Load.plan_of_fits source (isTerse_writeImage hmagic records payload)
      hparse (headersSize_le_writeImage hcount payload)
    have hload : (load (writeImage h records payload) source).value =
        .ok (Sink.registerAll Image.empty rs) := by
      rw [value_load, hplan]
      rfl
    obtain ⟨hd, found, hdecode, hfound, holds, himage⟩ := calls_of_load hload
    obtain rfl : h = hd :=
      Option.some.inj ((decode?_writeImage h records payload).symm.trans hdecode)
    have same := holds.unique (holdsTable_writeImage h records payload) (hfound.trans hcount.symm)
    exact ⟨_, hload, hparse, by rw [himage, records_of_load, same]⟩
  · intro data image hload
    obtain ⟨hd, records, hdecode, hcount, holds, rfl⟩ := calls_of_load hload
    refine ⟨hd, by rw [parseHeader, hdecode], ?_⟩
    rw [records_of_load, ← hd.headersSize_eq]
    exact (eq_writeImage hdecode hcount holds).symm

/-- A header with one section record and a byte behind it, and an image of other data. -/
theorem image_round_trip_one_section :
    let h : Header := ⟨Header.magic, 0x8664, 1, 11, 0x1B8, 0x2C0, 0x2A0, 0xFFFD0000, ⟨0, 0⟩, ⟨0, 0⟩⟩
    let r : SectionRecord := ⟨⟨[46, 116, 101, 120, 116, 0, 0, 0], rfl⟩, 1, 2, 3, 4, 5, 6, 7, 8, ⟨9⟩⟩
    let written := Header.format.toBytes h ++
      (([r].map SectionRecord.format.toBytes).flatten ++ [0xCC])
    let data : Bytes := [0x56, 0x5A, 0, 0, 1] ++ List.replicate 80 1
    (h.signature = Header.magic ∧ [r].length = h.sectionCount.toNat ∧
      ∃ image, (load written .empty).value = .ok image ∧ parseHeader written = .ok h ∧
        image.sections.map (·.record) = [r]) ∧
    ∃ image, (load data .empty).value = .ok image ∧ ∃ h, parseHeader data = .ok h ∧
      Header.format.toBytes h ++
        (((image.sections.map (·.record)).map SectionRecord.format.toBytes).flatten ++
          data.drop (40 + 40 * h.sectionCount.toNat)) = data := by
  intro h r written data
  obtain ⟨image, hload, hparse, hrecords⟩ := (image_round_trip .empty).1 h [r] [0xCC] rfl rfl
  have loads : ∃ image, (load data .empty).value = .ok image := ⟨_, rfl⟩
  obtain ⟨image', hload'⟩ := loads
  exact ⟨⟨rfl, rfl, image, hload, hparse, hrecords⟩, image', hload',
    (image_round_trip .empty).2 data image' hload'⟩

end TeImage
