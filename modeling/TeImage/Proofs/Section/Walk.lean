/-
The walk through a section table under any header, whatever header the data start with. It fails
where the layout of the image fails and for the same reason, and otherwise gives a section for each
record that the header announces, each told from its own 40 bytes of the data and the image base
(`section_table_is_walked`).
-/
import Mathlib.Tactic
import TeImage.Proofs.Load.Outcome

namespace TeImage

namespace ImageSection

/-- The sections are those of the records that stand behind a header's worth of bytes, one for each
record that `h` announces. -/
structure WalksTable (data : Bytes) (h : Header) (sections : List ImageSection) : Prop where
  length : sections.length = h.sectionCount.toNat
  /-- Each record takes up the 40 bytes at its place and no others. -/
  section_at : ∀ i < h.sectionCount.toNat, ∃ r,
    SectionRecord.decoder.run (slice data (40 + 40 * i) 40) = some (r, []) ∧
      sections[i]? = some (ofRecord r h.imageBase)
  address : ∀ s ∈ sections, s.address.toNat =
    (h.imageBase.toNat + s.record.virtualAddress.toNat) % UInt64.size
  size : ∀ s ∈ sections, s.size.toNat = s.record.misc.toNat

theorem walksTable_of_table_eq_ok {data : Bytes} {h : Header} {sections : List ImageSection}
    (found : table data h = .ok sections) : WalksTable data h sections := by
  obtain ⟨records, count, holds, rfl⟩ := table_eq_ok_iff.1 found
  refine {
    length := by rw [List.length_map, count]
    section_at := fun i hi => ?_
    address := fun s hs => ?_
    size := fun s hs => ?_ }
  · have bound : i < records.length := count ▸ hi
    have own := run_slice_of_holdsTable holds bound
    rw [Header.size, Header.sectionRecordSize, Nat.mul_comm] at own
    refine ⟨records[i], own, ?_⟩
    rw [List.getElem?_map, List.getElem?_eq_getElem bound, Option.map_some]
  · obtain ⟨r, -, rfl⟩ := List.mem_map.1 hs
    exact (UInt64.toNat_add _ _).trans (by rw [UInt32.toNat_toUInt64]; rfl)
  · obtain ⟨r, -, rfl⟩ := List.mem_map.1 hs
    exact UInt32.toNat_toUInt64 r.misc

/-- The table of a header that need not be the one in the data fails to be read just if the data
are too short for it, with the fault of the layout, which fails in the same cases. Otherwise there
is a section for each record, made from the record's own bytes and placed from the plain image base;
other data and another header give the same sections if the bytes of the table, the number of
records and the image base are the same. -/
theorem section_table_is_walked (data : Bytes) (h : Header) :
    let needed := 40 + 40 * h.sectionCount.toNat
    ((∃ e, table data h = .error e) ↔ data.length < needed) ∧
    (∀ e, table data h = .error e →
      e = .truncatedSectionTable h.sectionCount.toNat needed data.length) ∧
    (∀ e, table data h = .error e ↔ Layout.compute h data.length = .error e) ∧
    (needed ≤ data.length → ∃ sections, table data h = .ok sections ∧
      WalksTable data h sections) ∧
    ∀ (data' : Bytes) (h' : Header), needed ≤ data.length → needed ≤ data'.length →
      h'.sectionCount = h.sectionCount → h'.imageBase = h.imageBase →
      slice data 40 (40 * h.sectionCount.toNat) = slice data' 40 (40 * h.sectionCount.toNat) →
        table data' h' = table data h := by
  intro needed
  have size : h.headersSize = needed := h.headersSize_eq
  rcases Nat.lt_or_ge data.length needed with short | fits
  · have fault := table_error (size ▸ short)
    have layoutFault := Layout.compute_error (size ▸ short)
    rw [fault, layoutFault, size]
    refine ⟨⟨fun _ => short, fun _ => ⟨_, rfl⟩⟩, fun e he => (Except.error.inj he).symm,
      fun e => ?_, fun fits => absurd fits (Nat.not_le.2 short), fun _ _ fits => ?_⟩
    · rw [Except.error.injEq, Except.error.injEq]
    · exact absurd fits (Nat.not_le.2 short)
  · obtain ⟨sections, found⟩ := table_ok (size ▸ fits)
    obtain ⟨l, hl⟩ := Layout.compute_ok (size ▸ fits)
    refine ⟨⟨?_, fun short => absurd short (Nat.not_lt.2 fits)⟩, ?_, fun e => ?_,
      fun _ => ⟨sections, found, walksTable_of_table_eq_ok found⟩, ?_⟩
    · rintro ⟨e, he⟩
      cases he.symm.trans found
    · intro e he
      cases he.symm.trans found
    · rw [found, hl]
      constructor
      · intro he
        cases he
      · intro he
        cases he
    · intro data' h' _ fits' count base same
      exact table_congr count base (size ▸ fits) (size ▸ fits') same

/-- Data that announce no sections, walked under a header with an image base near the top of the
address space: one record is there, two would be too many. -/
theorem section_table_is_walked_under_other_header :
    let r : SectionRecord :=
      ⟨⟨[46, 116, 101, 120, 116, 0, 0, 0], rfl⟩, 0x120, 0x2A0, 3, 4, 5, 6, 7, 8, ⟨0x60000020⟩⟩
    let data : Bytes := List.replicate 40 0 ++ r.encode
    let h (count : UInt8) : Header :=
      ⟨Header.magic, 0x8664, count, 11, 0x1B8, 0, 0, 0xFFFFFFFFFFFFFF00, ⟨0, 0⟩, ⟨0, 0⟩⟩
    (∃ s, table data (h 1) = .ok [s] ∧ s.record = r ∧ s.address.toNat = 0x1A0) ∧
    table data (h 2) = .error (.truncatedSectionTable 2 120 80) ∧
    Layout.compute (h 2) data.length = .error (.truncatedSectionTable 2 120 80) := by
  intro r data h
  constructor
  · obtain ⟨-, -, -, walked, -⟩ := section_table_is_walked data (h 1)
    obtain ⟨sections, found, walks⟩ := walked (by decide)
    obtain ⟨s, rfl⟩ := List.length_eq_one_iff.1 walks.length
    obtain ⟨r', own, first⟩ := walks.section_at 0 (by decide)
    have same : r' = r := by
      have decoded : SectionRecord.decoder.run (slice data 40 40) = some (r, []) := by decide
      exact congrArg Prod.fst (Option.some.inj (own.symm.trans decoded))
    obtain rfl : s = ofRecord r' (h 1).imageBase := Option.some.inj first
    have base : (h 1).imageBase.toNat = 0xFFFFFFFFFFFFFF00 := rfl
    have offset : r.virtualAddress.toNat = 0x2A0 := rfl
    refine ⟨_, found, same, ?_⟩
    rw [walks.address _ (List.mem_singleton_self _), base, ofRecord, same, offset]
    decide
  · obtain ⟨fails, fault, layout, -⟩ := section_table_is_walked data (h 2)
    obtain ⟨e, he⟩ := fails.2 (by decide)
    obtain rfl := fault e he
    exact ⟨he, (layout _).1 he⟩

end ImageSection

end TeImage
