/-
The names of symbols. A section record is named for its place in the table, the header and the entry
point have names of their own, and no two of these names are the same, wherever the records and the
entry point lie (`nodup_names`). So a freshly loaded image has every symbol that its load
registers, and each is found by its name (`symbols_found_by_name`).
-/
import Mathlib.Tactic
import TeImage.Proofs.Image.Repetition

namespace TeImage

/-! ## Names -/

namespace BoundRecord

/-- The name of the section record at the given offset of the table. -/
def sectionLabel (offset : Nat) : String := s!"gSectionHdr{offset}"

theorem sectionLabel_inj {k k' : Nat} : sectionLabel k = sectionLabel k' ↔ k = k' := by
  unfold sectionLabel
  constructor
  · intro h
    have digits : k.repr = k'.repr := (String.append_right_inj "gSectionHdr").1 h
    rw [Nat.repr_eq_ofList_toDigits, Nat.repr_eq_ofList_toDigits, String.ofList_inj] at digits
    calc k = Nat.ofDigitChars 10 (Nat.toDigits 10 k) 0 := Nat.ofDigitChars_ten_toDigits.symm
      _ = k' := by rw [digits, Nat.ofDigitChars_ten_toDigits]
  · rintro rfl
    rfl

theorem second_letter_sectionLabel (k : Nat) : (sectionLabel k).toList[1]? = some 'S' := by
  show ("gSectionHdr" ++ toString k).toList[1]? = some 'S'
  rw [String.toList_append]
  rfl

theorem ne_sectionLabel (name : String) (h : name.toList[1]? ≠ some 'S') (k : Nat) :
    name ≠ sectionLabel k := by
  rintro rfl
  exact h (second_letter_sectionLabel k)

/-- The symbols of a loaded image: one for each record, and that of the entry point. -/
def symbolsWith (base : UInt64) (count : Nat) (entry : UInt64) : List Symbol :=
  (all base count).map symbol ++ [⟨.function, entry, entryPointName⟩]

variable (base entry : UInt64) (count : Nat)

theorem length_symbolsWith : (symbolsWith base count entry).length = count + 2 := by
  rw [symbolsWith, all_eq]
  simp

theorem names_symbolsWith : (symbolsWith base count entry).map (·.name) =
    "gTEImageHdr" :: (List.range count).map (fun i => sectionLabel (40 * i)) ++
      ["ModuleEntryPoint"] := by
  rw [symbolsWith, all_eq]
  simp only [List.map_append, List.map_cons, List.map_map, List.map_nil]
  rfl

/-- Names tell symbols apart whatever addresses fall together. -/
theorem nodup_names : ((symbolsWith base count entry).map (·.name)).Nodup := by
  have sections : ((List.range count).map fun i => sectionLabel (40 * i)).Nodup := by
    refine List.nodup_range.map fun i j same => ?_
    have := sectionLabel_inj.1 same
    omega
  have foreign (name : String) (h : name.toList[1]? ≠ some 'S') :
      name ∉ (List.range count).map fun i => sectionLabel (40 * i) := by
    rw [List.mem_map]
    rintro ⟨i, -, same⟩
    exact ne_sectionLabel name h (40 * i) same.symm
  rw [names_symbolsWith, List.cons_append, List.nodup_cons, List.mem_append, List.mem_singleton]
  constructor
  · rintro (header | header)
    · exact foreign _ (by decide) header
    · exact absurd header (by decide)
  · refine List.nodup_append.2 ⟨sections, List.nodup_singleton _, ?_⟩
    rintro name known entryName same rfl
    rw [List.mem_singleton.1 same] at known
    exact foreign _ (by decide) known

variable {base entry count}

/-- What is named like a section record is the symbol of one. -/
theorem mem_symbolsWith_sectionLabel_iff {s : Symbol} {k : Nat} :
    (s ∈ symbolsWith base count entry ∧ s.name = sectionLabel k) ↔
      40 ∣ k ∧ k < 40 * count ∧ s = ⟨.data, base + .ofNat (40 + k), sectionLabel k⟩ := by
  rw [symbolsWith, all_eq, List.mem_append, List.mem_singleton, List.map_cons, List.mem_cons,
    List.map_map, List.mem_map]
  constructor
  · rintro ⟨(rfl | ⟨i, hi, rfl⟩) | rfl, named⟩
    · exact absurd named (ne_sectionLabel "gTEImageHdr" (by decide) k)
    · obtain rfl : 40 * i = k := sectionLabel_inj.1 named
      rw [List.mem_range] at hi
      exact ⟨Nat.dvd_mul_right 40 i, by omega, rfl⟩
    · exact absurd named (ne_sectionLabel entryPointName (by decide) k)
  · rintro ⟨⟨i, rfl⟩, small, rfl⟩
    exact ⟨.inl (.inr ⟨i, List.mem_range.2 (by omega), rfl⟩), rfl⟩

end BoundRecord

/-! ## Symbols by name -/

namespace Image

variable {i : Image}

theorem symbolNamed?_eq_some_iff (distinct : (i.symbols.map (·.name)).Nodup) {name : String}
    {s : Symbol} : i.symbolNamed? name = some s ↔ s ∈ i.symbols ∧ s.name = name := by
  unfold symbolNamed?
  constructor
  · intro h
    exact ⟨List.mem_of_find?_eq_some h, key_of_find? h⟩
  · rintro ⟨mem, rfl⟩
    have found : (i.symbols.find? (·.name = s.name)).isSome := by
      rw [List.find?_isSome]
      exact ⟨s, mem, decide_eq_true rfl⟩
    obtain ⟨s', hs'⟩ := Option.isSome_iff_exists.1 found
    have same := List.inj_on_of_nodup_map distinct (List.mem_of_find?_eq_some hs') mem
      (key_of_find? hs')
    rw [hs', same]

/-- Every symbol is found by its name, which no other one has. The names of section records are
those for the places of `count` records, which lie behind a header at `start`. -/
structure FindsSymbols (i : Image) (start : UInt64) (count : Nat) : Prop where
  length : i.symbols.length = count + 2
  distinct : (i.symbols.map (·.name)).Nodup
  found : ∀ s ∈ i.symbols, i.symbolNamed? s.name = some s
  sectionRecord_iff : ∀ k : Nat,
    (i.symbolNamed? s!"gSectionHdr{k}").isSome ↔ 40 ∣ k ∧ k < 40 * count
  sectionRecord_address : ∀ (k : Nat) (s : Symbol), i.symbolNamed? s!"gSectionHdr{k}" = some s →
    s.address.toNat = (start.toNat + 40 + k) % UInt64.size

theorem findsSymbols {base entry : UInt64} {count : Nat}
    (h : i.symbols = BoundRecord.symbolsWith base count entry) : i.FindsSymbols base count := by
  have distinct : (i.symbols.map (·.name)).Nodup := h ▸ BoundRecord.nodup_names base entry count
  have labelled (k : Nat) (s : Symbol) : i.symbolNamed? (BoundRecord.sectionLabel k) = some s ↔ _ :=
    (symbolNamed?_eq_some_iff distinct).trans (h ▸ BoundRecord.mem_symbolsWith_sectionLabel_iff)
  refine {
    length := h ▸ BoundRecord.length_symbolsWith base entry count
    distinct := distinct
    found := fun s hs => (symbolNamed?_eq_some_iff distinct).2 ⟨hs, rfl⟩
    sectionRecord_iff := fun k => ?_
    sectionRecord_address := fun k s hs => ?_ }
  · rw [Option.isSome_iff_exists]
    constructor
    · rintro ⟨s, hs⟩
      obtain ⟨whole, small, -⟩ := (labelled k s).1 hs
      exact ⟨whole, small⟩
    · rintro ⟨whole, small⟩
      exact ⟨_, (labelled k _).2 ⟨whole, small, rfl⟩⟩
  · obtain ⟨-, -, rfl⟩ := (labelled k s).1 hs
    rw [UInt64.toNat_add, UInt64.toNat_ofNat', Nat.add_mod_mod, Nat.add_assoc]

end Image

/-! ## Loaded images -/

namespace Load

variable (h : Header) (l : Layout) (sections : List ImageSection) (source : TypeSource)

theorem symbol?_registrations_build :
    (registrations h l sections (Annotations.build h l (Platform.ofMachine h.machine)
      source).value).filterMap Registration.symbol? =
        BoundRecord.symbolsWith l.headerRegion.start h.sectionCount.toNat h.entryPoint := by
  rw [symbol?_registrations, Annotations.value_build]
  rfl

/-- A symbol is left out if it is there already, which none of these is. -/
theorem symbols_registrations :
    (Sink.registerAll Image.empty (registrations h l sections (Annotations.build h l
      (Platform.ofMachine h.machine) source).value)).symbols =
        BoundRecord.symbolsWith l.headerRegion.start h.sectionCount.toNat h.entryPoint := by
  rw [Image.symbols_registerAll, symbol?_registrations_build]
  exact foldl_addNew_of_nodup (BoundRecord.nodup_names _ _ _).of_map

end Load

/-- A load into an image of its own leaves it with all symbols that were registered, one for each
section and two more, and each of them is found by its name. -/
theorem symbols_found_by_name {data : Bytes} {source : TypeSource} {image : Image}
    (h : (load data source).value = .ok image) :
    ∃ (hd : Header) (header code : Region) (calls : List Registration),
      parseHeader data = .ok hd ∧ image.regions = [header, code] ∧
      ((loadInto data source).runOn (⟨[]⟩ : CallLog)).value = (.ok (), ⟨calls⟩) ∧
      calls.filterMap Registration.symbol? = image.symbols ∧
      image.FindsSymbols header.start hd.sectionCount.toNat := by
  obtain ⟨calls, hplan, rfl⟩ := plan_of_load h
  have recorded := (hplan ▸ loadInto_follows data source).value_runOn_ok (⟨[]⟩ : CallLog)
  rw [CallLog.registerAll_eq, List.nil_append] at recorded
  obtain ⟨-, hd, l, sections, hh, -, -, rfl⟩ := Load.plan_eq_ok hplan
  have symbols := Load.symbols_registrations hd l sections source
  refine ⟨hd, l.headerRegion, l.codeRegion, _, hh, ?_, recorded, ?_, Image.findsSymbols symbols⟩
  · rw [Image.regions_registerAll, Load.region?_registrations]
    rfl
  · rw [symbols, Load.symbol?_registrations_build]

/-- An image of one section at the top of the address space: the entry point lies where the section
record does, at the bottom. -/
theorem symbols_found_by_name_at_entry :
    let data : Bytes := [0x56, 0x5A, 0x64, 0x86, 1, 0, 40, 0, 40, 0, 0, 0, 0, 0, 0, 0] ++
      0xD8 :: List.replicate 7 0xFF ++ List.replicate 56 0
    ∃ image, (load data .empty).value = .ok image ∧ image.entryPoint? = some 0 ∧
      image.symbols.length = 3 ∧
      (∃ s, image.symbolNamed? "gSectionHdr0" = some s ∧ s.address.toNat = 0) ∧
      image.symbolNamed? "gSectionHdr40" = none := by
  intro data
  have hparse : parseHeader data =
      .ok ⟨Header.magic, 0x8664, 1, 0, 40, 40, 0, 0xFFFFFFFFFFFFFFD8, ⟨0, 0⟩, ⟨0, 0⟩⟩ := rfl
  have loads : ∃ image, (load data .empty).value = .ok image ∧ image.entryPoint? = some 0 ∧
      ∃ code : Region, image.regions = [⟨0xFFFFFFFFFFFFFFD8, 80, 0, 80, ⟨1⟩⟩, code] :=
    ⟨_, rfl, by decide, _, rfl⟩
  obtain ⟨image, hload, entry, code', place⟩ := loads
  obtain ⟨hd, header, code, calls, hh, regions, -, -, finds⟩ := symbols_found_by_name hload
  cases hparse.symm.trans hh
  cases place.symm.trans regions
  obtain ⟨s, hs⟩ := Option.isSome_iff_exists.1 ((finds.sectionRecord_iff 0).2 (by decide))
  have beyond := mt (finds.sectionRecord_iff 40).1 (by decide)
  exact ⟨image, hload, entry, finds.length, ⟨s, hs, finds.sectionRecord_address 0 s hs⟩,
    Option.not_isSome_iff_eq_none.1 beyond⟩

end TeImage
