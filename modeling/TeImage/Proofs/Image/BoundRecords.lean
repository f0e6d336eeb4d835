/-
The header records of a loaded image. Each of them lies 40 bytes behind the one before it, and no
two of them at one address, so the image keeps a variable for every record (`map_address_all`,
`nodup_places`). The types of these variables are built in and take 40 bytes each, whatever the
width of a pointer and whatever other types there are (`size_header`, `size_sectionRecord`). So the
records fill the header region without gaps (`bound_records_tile_header`).
-/
import Mathlib.Tactic
import TeImage.Proofs.Image.SymbolNames
import TeImage.Proofs.Types.Precedence

namespace TeImage

/-! ## Places -/

namespace BoundRecord

/-- Where the record with index `k` lies, the header's own being the first. -/
def place (base : UInt64) (k : Nat) : UInt64 := base + .ofNat (40 * k)

theorem place_zero (base : UInt64) : place base 0 = base := UInt64.add_zero base

theorem place_add (base : UInt64) (k : Nat) : place base k + 40 = place base (k + 1) := by
  have width : (40 : UInt64) = .ofNat 40 := rfl
  rw [place, place, Nat.mul_succ, UInt64.ofNat_add, UInt64.add_assoc, width]

theorem map_address_all (base : UInt64) (count : Nat) :
    (all base count).map (·.address) = (List.range (count + 1)).map (place base) := by
  rw [all_eq, List.map_cons, List.map_map, List.range_succ_eq_map, List.map_cons, List.map_map,
    place_zero]
  congr 1
  refine List.map_congr_left fun k _ => ?_
  show base + .ofNat (40 + 40 * k) = base + .ofNat (40 * (k + 1))
  rw [Nat.mul_succ, Nat.add_comm]

/-- A table is too short for its places to go round to one another. -/
theorem nodup_places (base : UInt64) {count : Nat} (h : count < 256) :
    ((List.range (count + 1)).map (place base)).Nodup := by
  rw [List.nodup_map_iff_inj_on List.nodup_range]
  intro i hi j hj same
  rw [List.mem_range] at hi hj
  -- the offsets stay below `2 ^ 64`, so equal places have equal offsets
  have offset {k : Nat} (hk : k < count + 1) : (UInt64.ofNat (40 * k)).toNat = 40 * k := by
    rw [UInt64.toNat_ofNat']
    exact Nat.mod_eq_of_lt (by omega)
  rw [place, place, UInt64.add_right_inj, ← UInt64.toNat_inj, offset hi, offset hj] at same
  omega

theorem typeName_of_mem_all {base : UInt64} {count : Nat} {b : BoundRecord}
    (h : b ∈ all base count) : b.typeName = Builtin.headerName ∨
      b.typeName = Builtin.sectionRecordName := by
  rcases List.mem_cons.1 h with rfl | h
  · exact .inl rfl
  · obtain ⟨k, -, rfl⟩ := List.mem_map.1 h
    exact .inr rfl

end BoundRecord

/-! ## Sizes -/

namespace Builtin

variable {types : TypeTable}

theorem size_sectionRecord (pointerSize : UInt64) (types : TypeTable) :
    sectionRecord.size pointerSize types = some 40 := rfl

/-- Of all other types the header mentions only the data directory. -/
theorem size_header (h : types dataDirectoryName = some dataDirectory) (pointerSize : UInt64) :
    header.size pointerSize types = some 40 := by
  have element : (TypeRef.named dataDirectoryName).sizeWithin pointerSize types 32 = some 8 := by
    rw [TypeRef.sizeWithin, h]
    rfl
  have directories : (TypeRef.array (.named dataDirectoryName) 2).sizeWithin pointerSize types 33 =
      some 16 := by
    rw [TypeRef.sizeWithin, element]
    rfl
  unfold TypeDef.size header TypeKind.sizeBy
  simp only [Size.total, TypeRef.maxLevels, directories]
  rfl

end Builtin

namespace Image

/-- No built-in type was defined anew. -/
def KeepsBuiltin (i : Image) : Prop := ∀ d ∈ Builtin.all, i.typeNamed? d.name = some d

theorem KeepsBuiltin.typeSize? {i : Image} (keeps : i.KeepsBuiltin) {base : UInt64} {count : Nat}
    {b : BoundRecord} (h : b ∈ BoundRecord.all base count) :
    (i.typeNamed? b.typeName).isSome ∧ i.typeSize? b.typeName = some 40 := by
  have directory := keeps Builtin.dataDirectory (by simp [Builtin.all])
  have found {d : TypeDef} (hd : d ∈ Builtin.all)
      (hsize : d.size i.platform.pointerSize i.typeNamed? = some 40) :
      (i.typeNamed? d.name).isSome ∧ i.typeSize? d.name = some 40 := by
    rw [Image.typeSize?, keeps d hd]
    exact ⟨rfl, hsize⟩
  rcases BoundRecord.typeName_of_mem_all h with named | named <;> rw [named]
  · exact found (d := Builtin.header) (by simp [Builtin.all]) (Builtin.size_header directory _)
  · exact found (d := Builtin.sectionRecord) (by simp [Builtin.all])
      (Builtin.size_sectionRecord _ _)

end Image

/-! ## Loaded images -/

/-- The symbol of the entry point is the only one that is not of a record. -/
theorem BoundRecord.data_symbols (base : UInt64) (count : Nat) {entry : Symbol}
    (function : entry.kind = .function) :
    ((all base count).map symbol ++ [entry]).filter (·.kind = .data) =
      (all base count).map symbol := by
  have records : ((all base count).map symbol).filter (·.kind = .data) =
      (all base count).map symbol :=
    List.filter_eq_self.2 (List.forall_mem_map.2 fun _ _ => rfl)
  rw [List.filter_append, records, List.filter_cons_of_neg (by simp [function]), List.filter_nil,
    List.append_nil]

/-- What a freshly loaded image holds besides its platform, entry point and function. -/
theorem parts_of_load {data : Bytes} {source : TypeSource} {image : Image}
    (h : (load data source).value = .ok image) : ∃ (hd : Header) (l : Layout),
      parseHeader data = .ok hd ∧ Layout.compute hd data.length = .ok l ∧
      let records := BoundRecord.all l.headerRegion.start hd.sectionCount.toNat
      image.regions = [l.headerRegion, l.codeRegion] ∧
      image.sections.length = hd.sectionCount.toNat ∧
      (∀ name, image.typeNamed? name = TypeTable.ofList
        (Builtin.all ++ source.extra (Platform.ofMachine hd.machine)) name) ∧
      (∀ a, image.dataVariables[a]? =
        (records.map BoundRecord.dataVariable).reverse.find? (·.address = a)) ∧
      image.symbols = records.map BoundRecord.symbol ++
        [⟨.function, hd.entryPoint, entryPointName⟩] := by
  obtain ⟨rs, hplan, rfl⟩ := plan_of_load h
  obtain ⟨-, hd, l, sections, hh, hlayout, htable, rfl⟩ := Load.plan_eq_ok hplan
  obtain ⟨records, count, -, rfl⟩ := ImageSection.table_eq_ok_iff.1 htable
  refine ⟨hd, l, hh, hlayout, ?_, ?_, fun name => ?_, fun a => ?_, ?_⟩
  · rw [Image.regions_registerAll, Load.region?_registrations]
    rfl
  · rw [Image.sections_registerAll, Load.imageSection?_registrations]
    show (records.map _).length = _
    rw [List.length_map, count]
  · rw [Image.typeNamed?, Image.types_registerAll, Load.type?_registrations,
      Annotations.value_build]
    exact Option.or_none
  · rw [Image.dataVariables_registerAll, Load.dataVariable?_registrations,
      Annotations.value_build]
    exact Option.or_none
  · exact Load.symbols_registrations hd l _ source

/-! ## Tiles -/

/-- The image has a variable and a data symbol for each of `count + 1` records, and for nothing
else. The records fill the addresses from `start` up to `stop`, each with a type of its length. -/
structure Image.RecordsFill (i : Image) (start stop : UInt64) (count : Nat) : Prop where
  distinct : ((List.range (count + 1)).map (BoundRecord.place start)).Nodup
  keys : i.dataVariables.keys.Perm ((List.range (count + 1)).map (BoundRecord.place start))
  size : i.dataVariables.size = count + 1
  bound : ∀ k ≤ count, ∃ v, i.dataVariables[BoundRecord.place start k]? = some v ∧
    v.address = BoundRecord.place start k ∧
    (i.typeNamed? v.typeName).isSome ∧ i.typeSize? v.typeName = some 40
  first : BoundRecord.place start 0 = start
  /-- A record ends where the next one begins. -/
  next : ∀ k < count, BoundRecord.place start k + 40 = BoundRecord.place start (k + 1)
  last : BoundRecord.place start count + 40 = stop
  symbols : ((i.symbols.filter (·.kind = .data)).map (·.address)).Perm i.dataVariables.keys

section

variable {i : Image} {base : UInt64} {count : Nat}

/-- Where nothing but records was bound, there is a variable just where a record lies. -/
theorem Image.keys_perm (small : count < 256)
    (h : ∀ a, i.dataVariables[a]? = ((BoundRecord.all base count).map
      BoundRecord.dataVariable).reverse.find? (·.address = a)) :
    i.dataVariables.keys.Perm ((List.range (count + 1)).map (BoundRecord.place base)) := by
  -- neither side has duplicates, so it is enough that they have the same members
  rw [List.perm_ext_iff_of_nodup Std.ExtTreeMap.nodup_keys (BoundRecord.nodup_places base small)]
  intro a
  rw [Std.ExtTreeMap.mem_keys, Std.ExtTreeMap.mem_iff_isSome_getElem?, h,
    ← BoundRecord.map_address_all, List.find?_isSome]
  simp [BoundRecord.dataVariable]

/-- A variable that is there is that of a record at its address. -/
theorem Image.exists_record_of_mem
    (h : ∀ a, i.dataVariables[a]? = ((BoundRecord.all base count).map
      BoundRecord.dataVariable).reverse.find? (·.address = a)) {a : UInt64}
    (ha : a ∈ i.dataVariables) : ∃ b ∈ BoundRecord.all base count,
      i.dataVariables[a]? = some b.dataVariable ∧ b.address = a := by
  rw [Std.ExtTreeMap.mem_iff_isSome_getElem?] at ha
  obtain ⟨v, hv⟩ := Option.isSome_iff_exists.1 ha
  rw [h a] at hv
  obtain ⟨b, hb, rfl⟩ := List.mem_map.1 (List.mem_reverse.1 (List.mem_of_find?_eq_some hv))
  have address : b.dataVariable.address = a := key_of_find? hv
  exact ⟨b, hb, (h a).trans hv, address⟩

end

/-- What defines no built-in name leaves the built-in types as they are. -/
theorem Builtin.ofList_append {extra : List TypeDef}
    (foreign : ∀ d ∈ extra, ∀ b ∈ all, d.name ≠ b.name) {b : TypeDef} (hb : b ∈ all) :
    TypeTable.ofList (all ++ extra) b.name = some b := by
  have absent := TypeTable.ofList_eq_none_iff.2 fun d hd => foreign d hd b hb
  rw [TypeTable.ofList_append, absent, Option.none_or, ofList_all hb rfl]

/-- The code region begins behind as many records as there are sections, and the header. -/
theorem Layout.start_codeRegion {h : Header} {length : Nat} {l : Layout}
    (hl : compute h length = .ok l) :
    l.codeRegion.start = BoundRecord.place l.headerRegion.start (h.sectionCount.toNat + 1) := by
  obtain ⟨-, rfl⟩ := eq_of_compute hl
  show h.adjustedBase + .ofNat h.headersSize = BoundRecord.place h.adjustedBase _
  rw [BoundRecord.place, h.headersSize_eq, Nat.mul_succ, Nat.add_comm]

/-- A load that leaves the built-in types alone binds records that fill the header region, and
nothing else. -/
theorem bound_records_tile_header {data : Bytes} {source : TypeSource} {image : Image}
    (h : (load data source).value = .ok image)
    (foreign : ∀ d ∈ source.extra (Platform.ofMachine (machineOf data)),
      ∀ b ∈ Builtin.all, d.name ≠ b.name) :
    ∃ (hd : Header) (header code : Region), parseHeader data = .ok hd ∧
      image.regions = [header, code] ∧ image.sections.length = hd.sectionCount.toNat ∧
      image.RecordsFill header.start code.start hd.sectionCount.toNat := by
  obtain ⟨hd, l, hh, hlayout, regions, sections, types, bound, symbols⟩ := parts_of_load h
  have small : hd.sectionCount.toNat < 256 := hd.sectionCount.toNat_lt
  have keys := Image.keys_perm small bound
  have keeps : image.KeepsBuiltin := by
    intro b hb
    rw [types, (fields_of_parseHeader hh).1]
    exact Builtin.ofList_append foreign hb
  refine ⟨hd, l.headerRegion, l.codeRegion, hh, regions, sections, {
    distinct := BoundRecord.nodup_places _ small
    keys := keys
    size := ?_
    bound := fun k hk => ?_
    first := BoundRecord.place_zero _
    next := fun k _ => BoundRecord.place_add _ k
    last := (BoundRecord.place_add _ _).trans (Layout.start_codeRegion hlayout).symm
    symbols := ?_ }⟩
  · rw [← Std.ExtTreeMap.length_keys, keys.length_eq, List.length_map, List.length_range]
  · have mem : BoundRecord.place l.headerRegion.start k ∈ image.dataVariables := by
      rw [← Std.ExtTreeMap.mem_keys, keys.mem_iff]
      exact List.mem_map_of_mem (List.mem_range.2 (Nat.lt_succ_of_le hk))
    obtain ⟨b, hb, hv, address⟩ := Image.exists_record_of_mem bound mem
    exact ⟨b.dataVariable, hv, address, keeps.typeSize? hb⟩
  · rw [symbols, BoundRecord.data_symbols _ _ rfl, List.map_map]
    exact BoundRecord.map_address_all _ _ ▸ keys.symm

/-- An image of one section for an unknown machine, the header at the top of the address space and
its table at the bottom, and a source with a type of its own. -/
theorem bound_records_tile_header_around_top :
    let data : Bytes := [0x56, 0x5A, 0xFF, 0xFF, 1] ++ List.replicate 75 0
    let source : TypeSource := .fixed [⟨"UINTN", .aliasOf (.named "EFI_TE_IMAGE_HEADER")⟩]
    ∃ image, (load data source).value = .ok image ∧ image.platform = .unresolved ∧
      ∃ header code : Region, image.regions = [header, code] ∧
        image.RecordsFill header.start code.start 1 := by
  intro data source
  have hparse : parseHeader data =
      .ok ⟨Header.magic, 0xFFFF, 1, 0, 0, 0, 0, 0, ⟨0, 0⟩, ⟨0, 0⟩⟩ := rfl
  have loads : ∃ image, (load data source).value = .ok image ∧ image.platform = .unresolved :=
    ⟨_, rfl, rfl⟩
  obtain ⟨image, hload, platform⟩ := loads
  have foreign : ∀ d ∈ source.extra (Platform.ofMachine (machineOf data)),
      ∀ b ∈ Builtin.all, d.name ≠ b.name := by
    intro d hd
    cases List.mem_singleton.1 hd
    decide
  obtain ⟨hd, header, code, hh, regions, -, fill⟩ := bound_records_tile_header hload foreign
  cases hparse.symm.trans hh
  exact ⟨image, hload, platform, header, code, regions, fill⟩

end TeImage
