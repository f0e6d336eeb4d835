/-
Where an image is placed. Its header has two fields that say so: the image base, which moves the
whole image, and the stripped size, which moves the header with its section table and leaves the
sections, the entry point and the functions behind. Writing another value over either field gives
an image that loads all the same, and what is loaded is the old image moved (`load_rebased`,
`load_restripped`).
-/
import Mathlib.Tactic
import TeImage.Proofs.Image.Relocation
import TeImage.Proofs.Load.Source

namespace TeImage

/-! ## Writing over a field -/

/-- `data` with `bs` in the place of the bytes that stand from `offset` on. -/
def overwrite (data : Bytes) (offset : Nat) (bs : Bytes) : Bytes :=
  data.take offset ++ (bs ++ data.drop (offset + bs.length))

theorem overwrite_append {front old new : Bytes} {offset : Nat} (hfront : front.length = offset)
    (hnew : new.length = old.length) (behind : Bytes) :
    overwrite (front ++ (old ++ behind)) offset new = front ++ (new ++ behind) := by
  have rest : (front ++ (old ++ behind)).drop (offset + new.length) = behind := by
    rw [← List.append_assoc, List.drop_left' (by rw [List.length_append, hfront, hnew])]
  rw [overwrite, List.take_left' hfront, rest]

/-- `data` with another image base. -/
def withImageBase (data : Bytes) (base : UInt64) : Bytes :=
  overwrite data 16 (littleEndian 8 base.toNat)

/-- `data` with another stripped size. -/
def withStrippedSize (data : Bytes) (size : UInt16) : Bytes :=
  overwrite data 6 (littleEndian 2 size.toNat)

section

variable (h : Header) (records : List SectionRecord) (payload : Bytes)

theorem withImageBase_writeImage (base : UInt64) :
    withImageBase (writeImage h records payload) base =
      writeImage { h with imageBase := base } records payload := by
  have front : (h.signature.1 ++ (littleEndian 2 h.machine.toNat ++
      (littleEndian 1 h.sectionCount.toNat ++ (littleEndian 1 h.subsystem.toNat ++
      (littleEndian 2 h.strippedSize.toNat ++ (littleEndian 4 h.entryAddress.toNat ++
      littleEndian 4 h.codeAddress.toNat)))))).length = 16 := by
    simp [h.signature.2]
  have widths : (littleEndian 8 base.toNat).length = (littleEndian 8 h.imageBase.toNat).length := by
    simp
  rw [withImageBase, writeImage_eq, writeImage_eq, Header.encode_append, Header.encode_append]
  simpa only [List.append_assoc] using overwrite_append front widths _

theorem withStrippedSize_writeImage (size : UInt16) :
    withStrippedSize (writeImage h records payload) size =
      writeImage { h with strippedSize := size } records payload := by
  have front : (h.signature.1 ++ (littleEndian 2 h.machine.toNat ++
      (littleEndian 1 h.sectionCount.toNat ++ littleEndian 1 h.subsystem.toNat))).length = 6 := by
    simp [h.signature.2]
  have widths : (littleEndian 2 size.toNat).length =
      (littleEndian 2 h.strippedSize.toNat).length := by
    simp
  rw [withStrippedSize, writeImage_eq, writeImage_eq, Header.encode_append, Header.encode_append]
  simpa only [List.append_assoc] using overwrite_append front widths _

theorem parseHeader_writeImage : parseHeader (writeImage h records payload) = .ok h :=
  parseHeader_eq_ok_iff.2 (decode?_writeImage h records payload)

theorem imageBaseOf_writeImage : imageBaseOf (writeImage h records payload) = h.imageBase := by
  obtain ⟨-, -, -, -, base⟩ := fields_of_parseHeader (parseHeader_writeImage h records payload)
  exact base.symm

theorem strippedSizeOf_writeImage :
    strippedSizeOf (writeImage h records payload) = h.strippedSize := by
  obtain ⟨-, -, stripped, -, -⟩ := fields_of_parseHeader (parseHeader_writeImage h records payload)
  exact stripped.symm

theorem length_writeImage : (writeImage h records payload).length =
    Header.size + records.length * Header.sectionRecordSize + payload.length := by
  rw [writeImage_eq, List.length_append, List.length_append, h.length_encode,
    ImageSection.length_encodings, Nat.add_assoc]

end

/-! ## Loading what is written -/

/-- What is written from a header with the mark, as many records as it announces and any payload
is loaded as the calls for just these. -/
theorem load_writeImage {h : Header} {records : List SectionRecord}
    (hmagic : h.signature = Header.magic) (hcount : records.length = h.sectionCount.toNat)
    (payload : Bytes) (source : TypeSource) :
    (load (writeImage h records payload) source).value = .ok (Sink.registerAll Image.empty
      (Load.calls h records (source.extra (Platform.ofMachine h.machine))
        (writeImage h records payload).length)) := by
  have hparse := parseHeader_writeImage h records payload
  have hplan := Load.plan_of_holdsTable source (isTerse_writeImage hmagic records payload) hparse
    hcount (holdsTable_writeImage h records payload)
  obtain ⟨machine, -⟩ := fields_of_parseHeader hparse
  rw [value_load, hplan, machine]
  rfl

/-- Whatever loads was written so. -/
theorem exists_writeImage_of_load {data : Bytes} {source : TypeSource} {image : Image}
    (h : (load data source).value = .ok image) :
    ∃ (hd : Header) (records : List SectionRecord) (payload : Bytes),
      hd.signature = Header.magic ∧ records.length = hd.sectionCount.toNat ∧
        data = writeImage hd records payload := by
  rw [value_load] at h
  cases hplan : Load.plan data source with
  | error e => rw [hplan] at h; cases h
  | ok rs =>
    obtain ⟨terse, -⟩ := Load.plan_eq_ok hplan
    obtain ⟨hd, records, hdecode, hcount, holds, -⟩ := Load.calls_of_plan hplan
    have written := eq_writeImage hdecode hcount holds
    refine ⟨hd, records, _, ?_, hcount, written⟩
    have mark := ((isTerse_iff data).1 terse).2
    rw [written, writeImage_eq, Header.encode_append, List.take_left' hd.signature.2] at mark
    exact Subtype.ext mark

/-! ## Calls in another place -/

namespace Load

variable (h : Header) (d : Displacement) (base : UInt64)

/-- A distance may be counted in before or after another. -/
theorem add_displacement (a b c : UInt64) : a + c + b = a + b + c := by
  rw [UInt64.add_assoc, UInt64.add_comm c, UInt64.add_assoc]

theorem regionCalls_move (length : Nat) : regionCalls h (base + d.header) length =
    (regionCalls h base length).map (Registration.move d) := by
  simp only [regionCalls, List.map_cons, List.map_nil, Registration.move, Region.move,
    add_displacement]

theorem sectionCalls_move {h' : Header} (hcontents : h'.imageBase = h.imageBase + d.contents)
    (records : List SectionRecord) :
    sectionCalls h' records = (sectionCalls h records).map (Registration.move d) := by
  simp only [sectionCalls, hcontents, List.map_map, Function.comp_def, Registration.move,
    ImageSection.move, add_displacement]

theorem typeCalls_move (extra : List TypeDef) :
    typeCalls extra = (typeCalls extra).map (Registration.move d) := by
  simp only [typeCalls, List.map_cons, List.map_map, Function.comp_def, Registration.move]

theorem variableCalls_move : variableCalls h (base + d.header) =
    (variableCalls h base).map (Registration.move d) := by
  simp only [variableCalls, List.map_cons, List.map_map, Function.comp_def, Registration.move,
    DataVariable.move, add_displacement]

theorem symbolCalls_move : symbolCalls h (base + d.header) =
    (symbolCalls h base).map (Registration.move d) := by
  simp only [symbolCalls, List.map_cons, List.map_map, Function.comp_def, Registration.move,
    Symbol.move, Displacement.ofSymbolKind, add_displacement]

theorem entryCalls_move (entry : UInt64) (platform : Platform) :
    entryCalls (entry + d.contents) platform =
      (entryCalls entry platform).map (Registration.move d) := rfl

end Load

/-- `h'` places the header and the contents of an image by `d` further than `h` does, and agrees
with it in all else that a load looks at. -/
structure Header.Moved (d : Displacement) (h h' : Header) : Prop where
  signature : h'.signature = h.signature
  machine : h'.machine = h.machine
  sectionCount : h'.sectionCount = h.sectionCount
  entryAddress : h'.entryAddress = h.entryAddress
  contents : h'.imageBase = h.imageBase + d.contents
  header : h'.imageBase + h'.strippedSize.toUInt64 =
    h.imageBase + h.strippedSize.toUInt64 + d.header

/-- All that is registered from a header moves with it. -/
theorem Load.calls_move {h h' : Header} {d : Displacement} (moved : Header.Moved d h h')
    (records : List SectionRecord) (extra : List TypeDef) (length : Nat) :
    calls h' records extra length = (calls h records extra length).map (Registration.move d) := by
  have base : h'.imageBase + h'.strippedSize.toUInt64 - 40 =
      h.imageBase + h.strippedSize.toUInt64 - 40 + d.header := by
    rw [moved.header, UInt64.sub_eq_add_neg, UInt64.sub_eq_add_neg, add_displacement]
  have entry : h'.imageBase + h'.entryAddress.toUInt64 =
      h.imageBase + h.entryAddress.toUInt64 + d.contents := by
    rw [moved.contents, moved.entryAddress, add_displacement]
  -- of the header itself these three take the number of sections only
  have regionCalls_eq : regionCalls h' = regionCalls h := by
    unfold regionCalls
    rw [moved.sectionCount]
  have variableCalls_eq : variableCalls h' = variableCalls h := by
    unfold variableCalls
    rw [moved.sectionCount]
  have symbolCalls_eq : symbolCalls h' = symbolCalls h := by
    unfold symbolCalls
    rw [moved.sectionCount]
  simp only [calls, List.map_append, moved.machine, base, entry, regionCalls_eq, variableCalls_eq,
    symbolCalls_eq, regionCalls_move, sectionCalls_move h d moved.contents, variableCalls_move,
    symbolCalls_move, entryCalls_move, ← typeCalls_move d extra]
  rfl

/-! ## Loading from another place -/

/-- An image whose header is moved is loaded as the moved image. -/
theorem load_writeImage_of_moved {h h' : Header} {d : Displacement} (moved : Header.Moved d h h')
    {records : List SectionRecord} (hmagic : h.signature = Header.magic)
    (hcount : records.length = h.sectionCount.toNat) {payload : Bytes} {source : TypeSource}
    {image : Image} (hload : (load (writeImage h records payload) source).value = .ok image) :
    (load (writeImage h' records payload) source).value = .ok (image.move d) := by
  rw [load_writeImage hmagic hcount, length_writeImage] at hload
  obtain rfl := Except.ok.inj hload
  rw [load_writeImage (moved.signature.trans hmagic) (moved.sectionCount ▸ hcount),
    length_writeImage, moved.machine, Load.calls_move moved, ← Image.registerAll_move,
    Image.move_empty]

section

variable {data : Bytes} {source : TypeSource} {image : Image}

/-- With an image base that is `delta` higher the same image is loaded, all of it moved by
`delta`. -/
theorem load_rebased (h : (load data source).value = .ok image) (delta : UInt64) :
    (load (withImageBase data (imageBaseOf data + delta)) source).value =
        .ok (image.move ⟨delta, delta⟩) ∧
      (∀ a : UInt64, (image.move ⟨delta, delta⟩).dataVariables[a + delta]? =
        image.dataVariables[a]?.map (DataVariable.move delta)) ∧
      (∀ a : UInt64, (image.move ⟨delta, delta⟩).functions[a + delta]? =
        image.functions[a]?.map (FunctionSignature.move delta)) ∧
      (image.move ⟨delta, delta⟩).entrySignature?.map FunctionSignature.display =
        image.entrySignature?.map FunctionSignature.display := by
  refine ⟨?_, getElem?_moveKeys delta _ _, getElem?_moveKeys delta _ _, ?_⟩
  · obtain ⟨hd, records, payload, hmagic, hcount, rfl⟩ := exists_writeImage_of_load h
    have moved : Header.Moved ⟨delta, delta⟩ hd { hd with imageBase := hd.imageBase + delta } :=
      ⟨rfl, rfl, rfl, rfl, rfl, Load.add_displacement _ _ _⟩
    rw [imageBaseOf_writeImage, withImageBase_writeImage]
    exact load_writeImage_of_moved moved hmagic hcount h
  · rw [Image.entrySignature?_move, Option.map_map]
    rfl

/-- An image at `0x1000` of one section and with its entry point at `0x1010`, moved down by one. -/
theorem load_rebased_down :
    let data : Bytes := [0x56, 0x5A, 0x4C, 0x01, 1, 0, 0, 0, 0x10] ++ List.replicate 8 0 ++
      0x10 :: List.replicate 62 0
    let down : UInt64 := 0xFFFFFFFFFFFFFFFF
    ∃ image, (load data .empty).value = .ok image ∧
      (load (withImageBase data (imageBaseOf data + down)) .empty).value =
        .ok (image.move ⟨down, down⟩) ∧
      image.entryPoint? = some 0x1010 ∧ (image.move ⟨down, down⟩).entryPoint? = some 0x100F ∧
      image.regions.map (·.start) = [0xFD8, 0x1028] ∧
      (image.move ⟨down, down⟩).regions.map (·.start) = [0xFD7, 0x1027] :=
  ⟨_, rfl, (load_rebased rfl _).1, rfl, rfl, rfl, rfl⟩

/-- With another stripped size the same image is loaded, with the regions and the bound records
moved by the difference of the two sizes and all else where it was. -/
theorem load_restripped (h : (load data source).value = .ok image) (size : UInt16) :
    let d := size.toUInt64 - (strippedSizeOf data).toUInt64
    (load (withStrippedSize data size) source).value = .ok { image with
        regions := image.regions.map (Region.move d)
        dataVariables := moveKeys d (DataVariable.move d) image.dataVariables
        symbols := image.symbols.map fun s =>
          if s.kind = .data then { s with address := s.address + d } else s } ∧
      ∀ a : UInt64, (moveKeys d (DataVariable.move d) image.dataVariables)[a + d]? =
        image.dataVariables[a]?.map (DataVariable.move d) := by
  intro d
  refine ⟨?_, getElem?_moveKeys d _ _⟩
  obtain ⟨hd, records, payload, hmagic, hcount, rfl⟩ := exists_writeImage_of_load h
  have difference : hd.imageBase + size.toUInt64 =
      hd.imageBase + hd.strippedSize.toUInt64 + (size.toUInt64 - hd.strippedSize.toUInt64) := by
    rw [UInt64.add_assoc, UInt64.add_comm hd.strippedSize.toUInt64, UInt64.sub_add_cancel]
  have moved : Header.Moved ⟨d, 0⟩ hd { hd with strippedSize := size } :=
    ⟨rfl, rfl, rfl, rfl, (UInt64.add_zero _).symm, by
      simp only [d, strippedSizeOf_writeImage]; exact difference⟩
  rw [← Image.move_header, withStrippedSize_writeImage]
  exact load_writeImage_of_moved moved hmagic hcount h

/-- An image of one section that says it was cut off nothing, and then that it was cut off the
header's own size. The records of its header move, its entry point stays. -/
theorem load_restripped_by_header :
    let data : Bytes := [0x56, 0x5A, 0x4C, 0x01, 1, 0, 0, 0, 0x10] ++ List.replicate 8 0 ++
      0x10 :: List.replicate 62 0
    let moved (image : Image) : Image := { image with
      regions := image.regions.map (Region.move 40)
      dataVariables := moveKeys 40 (DataVariable.move 40) image.dataVariables
      symbols := image.symbols.map fun s =>
        if s.kind = .data then { s with address := s.address + 40 } else s }
    ∃ image, (load data .empty).value = .ok image ∧
      (load (withStrippedSize data 40) .empty).value = .ok (moved image) ∧
      image.symbols.map (·.address) = [0xFD8, 0x1000, 0x1010] ∧
      (moved image).symbols.map (·.address) = [0x1000, 0x1028, 0x1010] ∧
      (moved image).entryPoint? = some 0x1010 :=
  ⟨_, rfl, (load_restripped rfl 40).1, rfl, rfl, rfl⟩

end

end TeImage
