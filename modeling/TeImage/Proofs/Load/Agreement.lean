/-
What of its data a load looks at: the mark, the machine code, the number of sections, the stripped
size, the entry address, the image base and the section table. Data of one length that agree in
these are loaded alike to the last log line, and data that agree in these but for the machine code
are loaded alike up to what tells one platform from another (`load_looks_at`).
-/
import Mathlib.Tactic
import TeImage.Proofs.Load.Source

namespace TeImage

/-! ## Bytes -/

/-- A piece of a piece of the data. -/
theorem slice_slice (data : Bytes) (offset : Nat) {length inner width : Nat}
    (h : inner + width ≤ length) :
    slice (slice data offset length) inner width = slice data (offset + inner) width := by
  rw [slice, slice, slice, List.drop_take, List.drop_drop, List.take_take, Nat.min_eq_left]
  omega

/-- Where two byte strings agree in a piece they agree in each piece of it. -/
theorem slice_congr {data data' : Bytes} {offset length : Nat}
    (h : slice data offset length = slice data' offset length) (inner : Nat) {width : Nat}
    (hinner : inner + width ≤ length) :
    slice data (offset + inner) width = slice data' (offset + inner) width := by
  rw [← slice_slice data offset hinner, h, slice_slice data' offset hinner]

/-- Byte strings of one length that agree in all that a load looks at, the machine code aside. -/
structure AgreeButMachine (data data' : Bytes) : Prop where
  length : data.length = data'.length
  mark : slice data 0 2 = slice data' 0 2
  sectionCount : slice data 4 1 = slice data' 4 1
  strippedSizeAndEntry : slice data 6 6 = slice data' 6 6
  imageBase : slice data 16 8 = slice data' 16 8
  table : slice data 40 (40 * announcedSections data) =
    slice data' 40 (40 * announcedSections data)

/-! ## Headers -/

namespace Header

/-- Headers that agree in all that a load looks at, the machine code aside. -/
structure Alike (h h' : Header) : Prop where
  sectionCount : h'.sectionCount = h.sectionCount
  strippedSize : h'.strippedSize = h.strippedSize
  entryAddress : h'.entryAddress = h.entryAddress
  imageBase : h'.imageBase = h.imageBase

variable {h h' : Header}

theorem Alike.headersSize (alike : Alike h h') : h'.headersSize = h.headersSize := by
  rw [Header.headersSize, alike.sectionCount, Header.headersSize]

theorem Alike.headerOffset (alike : Alike h h') : h'.headerOffset = h.headerOffset := by
  rw [Header.headerOffset, alike.strippedSize, Header.headerOffset]

theorem Alike.adjustedBase (alike : Alike h h') : h'.adjustedBase = h.adjustedBase := by
  rw [Header.adjustedBase, alike.imageBase, alike.headerOffset, Header.adjustedBase]

theorem Alike.entryPoint (alike : Alike h h') : h'.entryPoint = h.entryPoint := by
  rw [Header.entryPoint, alike.imageBase, alike.entryAddress, Header.entryPoint]

theorem Alike.compute (alike : Alike h h') (length : Nat) :
    Layout.compute h' length = Layout.compute h length := by
  unfold Layout.compute
  rw [alike.headersSize, alike.headerOffset, alike.adjustedBase, alike.sectionCount]

theorem Alike.build (alike : Alike h h') (l : Layout) (platform : Platform) (source : TypeSource) :
    Annotations.build h' l platform source = Annotations.build h l platform source := by
  rw [Annotations.build, alike.sectionCount, Annotations.build]

theorem Alike.remarks (alike : Alike h h') (machine : h'.machine = h.machine) :
    Load.remarks h' = Load.remarks h := by
  unfold Load.remarks
  rw [alike.headerOffset, alike.strippedSize, machine]

end Header

/-! ## Stages of a load -/

namespace AgreeButMachine

variable {data data' : Bytes} (agree : AgreeButMachine data data')

include agree

theorem isTerse_eq : isTerse data' = isTerse data := by
  have mark : data'.take 2 = data.take 2 := agree.mark.symm
  rw [isTerse, ← agree.length, mark, isTerse]

theorem alike {h h' : Header} (hh : parseHeader data = .ok h) (hh' : parseHeader data' = .ok h') :
    Header.Alike h h' := by
  obtain ⟨-, count, stripped, entry, base⟩ := fields_of_parseHeader hh
  obtain ⟨-, count', stripped', entry', base'⟩ := fields_of_parseHeader hh'
  have strippedBytes : slice data 6 2 = slice data' 6 2 :=
    slice_congr agree.strippedSizeAndEntry 0 (by decide)
  have entryBytes : slice data 8 4 = slice data' 8 4 :=
    slice_congr agree.strippedSizeAndEntry 2 (by decide)
  exact {
    sectionCount := by rw [count', ← agree.sectionCount, count]
    strippedSize := by rw [stripped', strippedSizeOf, ← strippedBytes, stripped, strippedSizeOf]
    entryAddress := by rw [entry', ← entryBytes, entry]
    imageBase := by rw [base', imageBaseOf, ← agree.imageBase, base, imageBaseOf] }

/-- The data hold the same table if they hold one of the size that is announced. -/
theorem holdsTable {records : List SectionRecord} (holds : ImageSection.HoldsTable data records)
    (hcount : records.length = announcedSections data) : ImageSection.HoldsTable data' records :=
  holds.congr (agree.length ▸ holds.size_le) (hcount ▸ agree.table)

theorem table_eq {h h' : Header} (alike : Header.Alike h h')
    (hcount : h.sectionCount.toNat = announcedSections data) :
    ImageSection.table data' h' = ImageSection.table data h := by
  rcases Nat.lt_or_ge data.length h.headersSize with short | fits
  · rw [ImageSection.table_error short, ImageSection.table_error (by
      rw [alike.headersSize, ← agree.length]; exact short), alike.headersSize,
      alike.sectionCount, agree.length]
  · exact ImageSection.table_congr alike.sectionCount alike.imageBase fits (agree.length ▸ fits)
      (hcount ▸ agree.table)

/-- Where the machine code is the same too, so is the whole load. -/
theorem loadInto_eq {σ : Type} [Sink σ] (hmachine : slice data 2 2 = slice data' 2 2)
    (source : TypeSource) : (loadInto data' source : LoadM σ Unit) = loadInto data source := by
  unfold loadInto
  rw [agree.isTerse_eq]
  cases ht : isTerse data with
  | false => rfl
  | true =>
    obtain ⟨h, hh, hcount⟩ := parseHeader_ok ((isTerse_iff data).1 ht).1
    obtain ⟨h', hh'⟩ := exists_header (agree.isTerse_eq.trans ht)
    have alike := agree.alike hh hh'
    have machine : h'.machine = h.machine := by
      rw [(fields_of_parseHeader hh').1, machineOf, ← hmachine, (fields_of_parseHeader hh).1,
        machineOf]
    have found (k : Header) (f : Header → LoadM σ Unit) :
        (LoadM.ofExcept (.ok k) >>= f) = f k := rfl
    simp only [hh, hh', found, machine, alike.remarks machine, Load.layout, alike.compute,
      Load.sections, agree.table_eq alike hcount, alike.build, alike.entryPoint, agree.length]

/-- Whatever the machine codes are, both data are refused for one reason, or both are loaded with
the same records. -/
theorem plan_cases (source : TypeSource) :
    (∃ e, Load.plan data source = .error e ∧ Load.plan data' source = .error e) ∨
      ∃ (h h' : Header) (records : List SectionRecord), Header.Alike h h' ∧
        h'.machine = machineOf data' ∧ Load.plan data source = .ok
          (Load.calls h records (source.extra (Platform.ofMachine (machineOf data))) data.length) ∧
        Load.plan data' source = .ok (Load.calls h' records
          (source.extra (Platform.ofMachine (machineOf data'))) data.length) := by
  cases ht : isTerse data with
  | false =>
    have ht' := agree.isTerse_eq.trans ht
    exact .inl ⟨_, Load.plan_of_not_terse source ht, Load.plan_of_not_terse source ht'⟩
  | true =>
    have ht' := agree.isTerse_eq.trans ht
    obtain ⟨h, hh, hcount⟩ := parseHeader_ok ((isTerse_iff data).1 ht).1
    obtain ⟨h', hh'⟩ := exists_header ht'
    have alike := agree.alike hh hh'
    rcases Nat.lt_or_ge data.length h.headersSize with short | fits
    · have short' : data'.length < h'.headersSize := by
        rw [alike.headersSize, ← agree.length]
        exact short
      refine .inl ⟨_, Load.plan_of_truncated source ht hh short, ?_⟩
      rw [Load.plan_of_truncated source ht' hh' short', alike.sectionCount, alike.headersSize,
        agree.length]
    · obtain ⟨records, count, holds⟩ := ImageSection.exists_holdsTable fits
      have count' : records.length = h'.sectionCount.toNat := by rw [count, alike.sectionCount]
      have holds' := agree.holdsTable holds (count.trans hcount)
      have hplan := Load.plan_of_holdsTable source ht hh count holds
      have hplan' := Load.plan_of_holdsTable source ht' hh' count' holds'
      obtain ⟨machine, -⟩ := fields_of_parseHeader hh'
      exact .inr ⟨h, h', records, alike, machine, hplan, agree.length ▸ hplan'⟩

end AgreeButMachine

/-! ## Another platform -/

/-- The same function on a given platform. -/
def FunctionSignature.forPlatform (p : Platform) (s : FunctionSignature) : FunctionSignature :=
  { s with callingConvention? := p.callingConvention? }

/-- The registration of the same fact for a given platform. -/
def Registration.forPlatform (p : Platform) : Registration → Registration
  | platform _ => platform p
  | functionType s => functionType (s.forPlatform p)
  | r => r

namespace Image

/-- The image with a given platform, and with its functions called as they are there. -/
def forPlatform (p : Platform) (i : Image) : Image :=
  { i with
    platform := p
    functions := i.functions.map fun _ s => s.forPlatform p }

theorem register_forPlatform (p : Platform) (i : Image) (r : Registration) :
    (i.forPlatform p).register (r.forPlatform p) = (i.register r).forPlatform p := by
  cases r with
  | functionType s =>
    have insert : (i.functions.map fun _ f => f.forPlatform p).insert s.start (s.forPlatform p) =
        (i.functions.insert s.start s).map fun _ f => f.forPlatform p := by
      apply Std.ExtTreeMap.ext_getElem?
      intro a
      simp only [Std.ExtTreeMap.getElem?_insert, Std.ExtTreeMap.getElem?_map]
      split <;> rfl
    exact congrArg (fun t => { i.forPlatform p with functions := t }) insert
  | _ => rfl

/-- What is registered for a platform makes the image for that platform. -/
theorem registerAll_forPlatform (p : Platform) (i : Image) (rs : List Registration) :
    Sink.registerAll (i.forPlatform p) (rs.map (Registration.forPlatform p)) =
      (Sink.registerAll i rs).forPlatform p :=
  Sink.registerAll_map (register_forPlatform p) i rs

end Image

/-- Headers that are alike up to the machine code call for the same on different platforms. -/
theorem Load.calls_forPlatform {h h' : Header} (alike : Header.Alike h h')
    (records : List SectionRecord) (extra : List TypeDef) (length : Nat) :
    calls h' records extra length = (calls h records extra length).map
      (Registration.forPlatform (Platform.ofMachine h'.machine)) := by
  simp only [calls, regionCalls, sectionCalls, typeCalls, variableCalls, symbolCalls, entryCalls,
    alike.sectionCount, alike.strippedSize, alike.entryAddress, alike.imageBase, List.map_append,
    List.map_cons, List.map_nil, List.map_map, Function.comp_def, Registration.forPlatform,
    FunctionSignature.forPlatform]

/-! ## Loads -/

/-- In a loaded image the definitions of the source stand before the built-in ones. -/
theorem Load.types_registerAll_calls (h : Header) (records : List SectionRecord)
    (extra : List TypeDef) (length : Nat) (name : String) :
    (Sink.registerAll Image.empty (calls h records extra length)).types[name]? =
      (TypeTable.ofList extra name).or (TypeTable.ofList Builtin.all name) := by
  rw [Image.types_registerAll, type?_calls, TypeTable.ofList_append]
  exact Option.or_none

/-- Headers that are alike make one image up to its platform and its types. -/
theorem Load.registerAll_calls_of_alike {h h' : Header} (alike : Header.Alike h h')
    (records : List SectionRecord) (extra extra' : List TypeDef) (length : Nat) :
    let image := Sink.registerAll Image.empty (calls h records extra length)
    let image' := Sink.registerAll Image.empty (calls h' records extra' length)
    image' = { image.forPlatform (Platform.ofMachine h'.machine) with types := image'.types } := by
  intro image image'
  let platform := Platform.ofMachine h'.machine
  have types := Image.registerAll_congr_types ((withoutTypesAfter_calls h records extra length).trans
    (withoutTypesAfter_calls h records extra' length).symm) Image.empty
  -- a load sets the platform, so that the empty image may as well have it before
  have reset : image' = Sink.registerAll (Image.empty.forPlatform platform)
      (calls h' records extra' length) :=
    (Image.registerAll_reset_of_mem (p := platform) (a := h'.imageBase + h'.entryAddress.toUInt64)
      (by simp [calls, platform]) (by simp [calls, entryCalls]) Image.empty platform none).symm
  rw [reset, calls_forPlatform alike, Image.registerAll_forPlatform, types]
  rfl

section

variable {data data' : Bytes} (agree : AgreeButMachine data data') {source : TypeSource}

include agree

theorem AgreeButMachine.outcome_eq {σ : Type} [Sink σ] (s : σ) :
    ((loadInto data' source).runOn s).value.1 = ((loadInto data source).runOn s).value.1 := by
  rw [loadInto_follows data source s, loadInto_follows data' source s]
  rcases agree.plan_cases source with ⟨e, fails, fails'⟩ | ⟨h, h', records, -, -, hplan, hplan'⟩
  · rw [fails, fails']
  · rw [hplan, hplan']

/-- The images differ in the platform and in the definitions of the source at most. -/
theorem AgreeButMachine.image_eq {image image' : Image}
    (hload : (load data source).value = .ok image)
    (hload' : (load data' source).value = .ok image') :
    image' = { image.forPlatform (Platform.ofMachine (machineOf data')) with
        types := image'.types } ∧
      ∀ name : String,
        image.types[name]? =
          (TypeTable.ofList (source.extra (Platform.ofMachine (machineOf data))) name).or
            (TypeTable.ofList Builtin.all name) ∧
        image'.types[name]? =
          (TypeTable.ofList (source.extra (Platform.ofMachine (machineOf data'))) name).or
            (TypeTable.ofList Builtin.all name) := by
  rw [value_load] at hload hload'
  rcases agree.plan_cases source with
    ⟨e, fails, -⟩ | ⟨h, h', records, alike, machine, hplan, hplan'⟩
  · rw [fails] at hload
    cases hload
  · rw [hplan] at hload
    rw [hplan'] at hload'
    obtain rfl := Except.ok.inj hload
    obtain rfl := Except.ok.inj hload'
    have same := Load.registerAll_calls_of_alike alike records
      (source.extra (Platform.ofMachine (machineOf data)))
      (source.extra (Platform.ofMachine (machineOf data'))) data.length
    rw [machine] at same
    exact ⟨same, fun name => ⟨Load.types_registerAll_calls .., Load.types_registerAll_calls ..⟩⟩

/-- The calls differ in the platform and in the definitions of the source at most. -/
theorem AgreeButMachine.calls_eq {calls calls' : List Registration}
    (hrun : ((loadInto data source).runOn (⟨[]⟩ : CallLog)).value = (.ok (), ⟨calls⟩))
    (hrun' : ((loadInto data' source).runOn (⟨[]⟩ : CallLog)).value = (.ok (), ⟨calls'⟩)) :
    withoutTypesAfter 3 calls' = (withoutTypesAfter 3 calls).map
        (Registration.forPlatform (Platform.ofMachine (machineOf data'))) ∧
      calls.filterMap Registration.type? =
        Builtin.all ++ source.extra (Platform.ofMachine (machineOf data)) ∧
      calls'.filterMap Registration.type? =
        Builtin.all ++ source.extra (Platform.ofMachine (machineOf data')) := by
  have planned := Load.plan_of_recorded hrun
  have planned' := Load.plan_of_recorded hrun'
  rcases agree.plan_cases source with
    ⟨e, fails, -⟩ | ⟨h, h', records, alike, machine, hplan, hplan'⟩
  · cases fails.symm.trans planned
  · obtain rfl := Except.ok.inj (hplan.symm.trans planned)
    obtain rfl := Except.ok.inj (hplan'.symm.trans planned')
    refine ⟨?_, Load.type?_calls .., Load.type?_calls ..⟩
    rw [Load.withoutTypesAfter_calls, Load.withoutTypesAfter_calls, Load.calls_forPlatform alike,
      machine]

end

/-- Data that agree in all that a load looks at are loaded alike. If they differ in the machine
code the outcome is still the same, and the images and the calls differ in the platform, the
calling convention of the entry point and the definitions of the source at most. -/
theorem load_looks_at {data data' : Bytes} (agree : AgreeButMachine data data')
    (source : TypeSource) :
    let platform := Platform.ofMachine (machineOf data)
    let platform' := Platform.ofMachine (machineOf data')
    (slice data 2 2 = slice data' 2 2 →
      load data' source = load data source ∧
      ∀ {σ : Type} [Sink σ] (s : σ),
        (loadInto data' source).runOn s = (loadInto data source).runOn s) ∧
    (∀ {σ : Type} [Sink σ] (s : σ), ((loadInto data' source).runOn s).value.1 =
      ((loadInto data source).runOn s).value.1) ∧
    (∀ image image' : Image, (load data source).value = .ok image →
      (load data' source).value = .ok image' →
        image' = { image.forPlatform platform' with types := image'.types } ∧
        ∀ name : String,
          image.types[name]? = (TypeTable.ofList (source.extra platform) name).or
            (TypeTable.ofList Builtin.all name) ∧
          image'.types[name]? = (TypeTable.ofList (source.extra platform') name).or
            (TypeTable.ofList Builtin.all name)) ∧
    ∀ calls calls' : List Registration,
      ((loadInto data source).runOn (⟨[]⟩ : CallLog)).value = (.ok (), ⟨calls⟩) →
      ((loadInto data' source).runOn (⟨[]⟩ : CallLog)).value = (.ok (), ⟨calls'⟩) →
        withoutTypesAfter 3 calls' =
          (withoutTypesAfter 3 calls).map (Registration.forPlatform platform') ∧
        calls.filterMap Registration.type? = Builtin.all ++ source.extra platform ∧
        calls'.filterMap Registration.type? = Builtin.all ++ source.extra platform' := by
  intro platform platform'
  refine ⟨fun hmachine => ⟨?_, fun s => by rw [agree.loadInto_eq hmachine]⟩, agree.outcome_eq,
    fun _ _ => agree.image_eq, fun _ _ => agree.calls_eq⟩
  rw [load, agree.loadInto_eq hmachine, load]

/-- An image of one section, an image with other bytes in all fields that no load looks at and
behind the section table, and that image for another machine. -/
theorem load_looks_at_two_machines :
    let record : Bytes := List.replicate 40 7
    let data : Bytes := [0x56, 0x5A, 0x4C, 0x01, 1, 0, 40, 0, 1, 0, 0, 0, 0, 0, 0, 0] ++
      List.replicate 24 0 ++ record ++ [0xCC]
    let same : Bytes := [0x56, 0x5A, 0x4C, 0x01, 1, 9, 40, 0, 1, 0, 0, 0, 9, 9, 9, 9] ++
      (List.replicate 8 0 ++ List.replicate 16 9) ++ record ++ [0x90]
    let other : Bytes := [0x56, 0x5A, 0x64, 0x86, 1, 9, 40, 0, 1, 0, 0, 0, 9, 9, 9, 9] ++
      (List.replicate 8 0 ++ List.replicate 16 9) ++ record ++ [0x90]
    (AgreeButMachine data same ∧ slice data 2 2 = slice same 2 2 ∧
      load same .empty = load data .empty) ∧
    AgreeButMachine data other ∧ ∃ image image', (load data .empty).value = .ok image ∧
      (load other .empty).value = .ok image' ∧
      image' = { image.forPlatform .x86_64 with types := image'.types } := by
  intro record data same other
  have agree : AgreeButMachine data same := ⟨rfl, rfl, rfl, rfl, rfl, rfl⟩
  have agree' : AgreeButMachine data other := ⟨rfl, rfl, rfl, rfl, rfl, rfl⟩
  have loads : ∃ image, (load data .empty).value = .ok image := ⟨_, rfl⟩
  have loads' : ∃ image, (load other .empty).value = .ok image := ⟨_, rfl⟩
  obtain ⟨image, hload⟩ := loads
  obtain ⟨image', hload'⟩ := loads'
  exact ⟨⟨agree, rfl, ((load_looks_at agree .empty).1 rfl).1⟩, agree', image, image', hload, hload',
    ((load_looks_at agree' .empty).2.2.1 image image' hload hload').1⟩

end TeImage
