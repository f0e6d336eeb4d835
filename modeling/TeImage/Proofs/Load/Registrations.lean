/-
The registrations of a load, told from its data. `Load.calls` lists them from the decoded header,
the decoded section records, the definitions that the type source adds and the length of the data,
with every address written out: the regions and the bound records lie from `image base + stripped
size - 40` upwards, the sections and the entry point from the plain image base. A load that does
not fail makes exactly these calls in this order, whatever takes them up
(`loadInto_calls_exactly`).
-/
import Mathlib.Tactic
import TeImage.Proofs.Load.Outcome
import TeImage.Proofs.Section.Table

namespace TeImage

/-! ## The calls -/

/-- The definitions that a source has for a platform, none if it fails. -/
def TypeSource.extra (source : TypeSource) (platform : Platform) : List TypeDef :=
  match (source.definitions platform).value with
  | .ok defs => defs
  | .error _ => []

namespace Load

variable (h : Header)

/-- The two regions: the header with its table for reading, the rest of the data for anything. -/
def regionCalls (base : UInt64) (length : Nat) : List Registration :=
  let tableEnd := 40 + 40 * h.sectionCount.toNat
  [.region ⟨base, .ofNat tableEnd, 0, .ofNat tableEnd, ⟨1⟩⟩,
    .region ⟨base + .ofNat tableEnd, .ofNat (length - tableEnd), .ofNat tableEnd,
      .ofNat (length - tableEnd), ⟨1 ||| 2 ||| 4⟩⟩]

/-- The sections, at the plain image base. -/
def sectionCalls (records : List SectionRecord) : List Registration :=
  records.map fun r => .imageSection
    ⟨r.nameText, h.imageBase + r.virtualAddress.toUInt64, r.misc.toUInt64, .readOnlyCode, r⟩

/-- The built-in types before the added ones. -/
def typeCalls (extra : List TypeDef) : List Registration :=
  .type Builtin.dataDirectory :: .type Builtin.header :: .type Builtin.sectionRecord ::
    extra.map .type

/-- The header and the section records behind it as variables. -/
def variableCalls (base : UInt64) : List Registration :=
  .dataVariable ⟨base, "EFI_TE_IMAGE_HEADER"⟩ :: (List.range h.sectionCount.toNat).map fun i =>
    .dataVariable ⟨base + .ofNat (40 + 40 * i), "EFI_IMAGE_SECTION_HEADER"⟩

/-- The names of these variables: a section record is named for its place in the table. -/
def symbolCalls (base : UInt64) : List Registration :=
  .symbol ⟨.data, base, "gTEImageHdr"⟩ :: (List.range h.sectionCount.toNat).map fun i =>
    .symbol ⟨.data, base + .ofNat (40 + 40 * i), s!"gSectionHdr{40 * i}"⟩

/-- The entry point with its name and its prototype. -/
def entryCalls (entry : UInt64) (platform : Platform) : List Registration :=
  [.entryPoint entry,
    .symbol ⟨.function, entry, "ModuleEntryPoint"⟩,
    .functionType {
      name := "ModuleEntryPoint"
      start := entry
      returnType := "EFI_STATUS"
      parameters := [⟨"EFI_PEI_FILE_HANDLE", "FileHandle"⟩, ⟨"EFI_PEI_SERVICES **", "PeiServices"⟩]
      callingConvention? := platform.callingConvention? }]

/-- What is registered for an image of `length` bytes with the given header and section records,
and with the definitions `extra` from the type source. -/
def calls (records : List SectionRecord) (extra : List TypeDef) (length : Nat) :
    List Registration :=
  let platform := Platform.ofMachine h.machine
  let base := h.imageBase + h.strippedSize.toUInt64 - 40
  let entry := h.imageBase + h.entryAddress.toUInt64
  [.platform platform] ++ regionCalls h base length ++ sectionCalls h records ++ typeCalls extra
    ++ variableCalls h base ++ symbolCalls h base ++ entryCalls entry platform

end Load

/-! ## The stages -/

theorem Annotations.value_auxiliaryTypes (source : TypeSource) (platform : Platform) :
    (auxiliaryTypes source platform).value = source.extra platform := by
  rw [auxiliaryTypes, TypeSource.extra, Logged.value_bind]
  cases (source.definitions platform).value with
  | error reasons => rfl
  | ok defs =>
    cases defs with
    | nil => rfl
    | cons d defs => rfl

theorem Annotations.value_build (h : Header) (l : Layout) (platform : Platform)
    (source : TypeSource) : (build h l platform source).value = {
      types := Builtin.all ++ source.extra platform
      dataVariables := (BoundRecord.all l.headerRegion.start h.sectionCount.toNat).map
        BoundRecord.dataVariable
      symbols := (BoundRecord.all l.headerRegion.start h.sectionCount.toNat).map
        BoundRecord.symbol } := by
  rw [build, Logged.value_bind, Logged.value_bind, value_auxiliaryTypes]
  rfl

/-- The bound records with their addresses and labels counted up from the base. -/
theorem BoundRecord.all_eq (base : UInt64) (count : Nat) :
    all base count = ⟨base, "EFI_TE_IMAGE_HEADER", "gTEImageHdr"⟩ ::
      (List.range count).map fun i =>
        ⟨base + .ofNat (40 + 40 * i), "EFI_IMAGE_SECTION_HEADER", s!"gSectionHdr{40 * i}"⟩ := by
  have record (i : Nat) : sectionRecord base i =
      ⟨base + .ofNat (40 + 40 * i), "EFI_IMAGE_SECTION_HEADER", s!"gSectionHdr{40 * i}"⟩ := by
    rw [sectionRecord, Header.size, Header.sectionRecordSize, Nat.mul_comm i]
    rfl
  rw [all, List.map_congr_left fun i _ => record i]
  rfl

theorem Annotations.registrations_build (h : Header) (l : Layout) (platform : Platform)
    (source : TypeSource) : (build h l platform source).value.registrations =
      let bound := BoundRecord.all l.headerRegion.start h.sectionCount.toNat
      (Builtin.all ++ source.extra platform).map .type ++
        bound.map (.dataVariable ·.dataVariable) ++ bound.map (.symbol ·.symbol) := by
  simp only [build, registrations, Logged.value_bind, Logged.value_pure, value_auxiliaryTypes,
    List.map_map]
  rfl

/-! ## The plan -/

/-- The plan of a load that does not fail lists the calls. -/
theorem Load.calls_of_plan {data : Bytes} {source : TypeSource} {rs : List Registration}
    (h : plan data source = .ok rs) : ∃ (hd : Header) (records : List SectionRecord),
      Header.decode? data = some hd ∧ records.length = hd.sectionCount.toNat ∧
      ImageSection.HoldsTable data records ∧
      rs = calls hd records (source.extra (Platform.ofMachine hd.machine)) data.length := by
  obtain ⟨-, hd, l, sections, hparse, hlayout, htable, rfl⟩ := plan_eq_ok h
  obtain ⟨records, count, holds, rfl⟩ := ImageSection.table_eq_ok_iff.1 htable
  have hdecode : Header.decode? data = some hd := by
    unfold parseHeader at hparse
    split at hparse
    · rename_i found
      cases hparse
      exact found
    · cases hparse
  refine ⟨hd, records, hdecode, count, holds, ?_⟩
  obtain ⟨-, rfl⟩ := Layout.eq_of_compute hlayout
  rw [registrations, Layout.regions, Annotations.registrations_build, BoundRecord.all_eq,
    Header.adjustedBase_eq, Header.headersSize_eq]
  simp only [calls, regionCalls, sectionCalls, typeCalls, variableCalls, symbolCalls, entryCalls,
    List.map_cons, List.map_nil, List.map_map, List.append_assoc]
  rfl

theorem CallLog.registerAll_eq (log : CallLog) (rs : List Registration) :
    Sink.registerAll log rs = ⟨log.calls ++ rs⟩ := by
  induction rs generalizing log with
  | nil => rw [List.append_nil]; rfl
  | cons r rs ih =>
    show Sink.registerAll (⟨log.calls ++ [r]⟩ : CallLog) rs = _
    rw [ih, List.append_assoc]
    rfl

/-- A load that does not fail hands its sink exactly the calls that its data ask for. -/
theorem loadInto_calls_exactly {σ : Type} [Sink σ] {data : Bytes} {source : TypeSource} {s : σ}
    (h : ((loadInto data source).runOn s).value.1 = .ok ()) :
    ∃ (hd : Header) (records : List SectionRecord), Header.decode? data = some hd ∧
      records.length = hd.sectionCount.toNat ∧
      (∀ i < records.length, SectionRecord.at? data i = records[i]?) ∧
      let calls := Load.calls hd records (source.extra (Platform.ofMachine hd.machine)) data.length
      ((loadInto data source).runOn s).value = (.ok (), Sink.registerAll s calls) ∧
      ((loadInto data source).runOn (⟨[]⟩ : CallLog)).value = (.ok (), ⟨calls⟩) := by
  obtain ⟨rs, hplan⟩ := (loadInto_follows data source).exists_plan h
  obtain ⟨hd, records, hdecode, count, holds, rfl⟩ := Load.calls_of_plan hplan
  have run {τ : Type} [Sink τ] (t : τ) := (hplan ▸ loadInto_follows data source).value_runOn_ok t
  have recorded := run (⟨[]⟩ : CallLog)
  rw [CallLog.registerAll_eq] at recorded
  exact ⟨hd, records, hdecode, count, fun i hi => ImageSection.at?_of_holdsTable holds hi, run s,
    recorded⟩

/-- An image of one section, with a source that fails. -/
theorem loadInto_calls_exactly_one_section :
    let data : Bytes := [0x56, 0x5A, 0x4C, 0x01, 1] ++ List.replicate 75 0
    let source : TypeSource := .failing ["no disk"]
    ((loadInto data source).runOn Image.empty).value.1 = .ok () ∧
      ∃ (hd : Header) (records : List SectionRecord), records.length = hd.sectionCount.toNat ∧
        ((loadInto data source).runOn (⟨[]⟩ : CallLog)).value =
          (.ok (), ⟨Load.calls hd records [] 80⟩) := by
  intro data source
  have succeeds : ((loadInto data source).runOn Image.empty).value.1 = .ok () := rfl
  obtain ⟨hd, records, -, count, -, -, recorded⟩ := loadInto_calls_exactly succeeds
  exact ⟨succeeds, hd, records, count, recorded⟩

end TeImage
