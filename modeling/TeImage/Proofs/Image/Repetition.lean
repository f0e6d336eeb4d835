/-
Registrations made once more. What an image keeps by key is there in its last version after the
first time, even if the list names a key twice, and a symbol is there after the first time; so the
same list adds nothing to either when it comes again, and only what is kept in order is there once
more (`registerAll_of_holds`). Annotations have nothing that is kept in order, and an image that
was just loaded has all that its annotation would register.
-/
import Mathlib.Tactic
import TeImage.Proofs.Image.Contents

namespace TeImage

namespace Image

/-! ## What is there already -/

/-- What the registrations say last about a key, and every symbol of them, is in the image. -/
structure Holds (i : Image) (rs : List Registration) : Prop where
  platform : ∀ p, (rs.filterMap Registration.platform?).getLast? = some p → i.platform = p
  entryPoint : ∀ a, (rs.filterMap Registration.entryPoint?).getLast? = some a →
    i.entryPoint? = some a
  types : ∀ name d, TypeTable.ofList (rs.filterMap Registration.type?) name = some d →
    i.types[name]? = some d
  dataVariables : ∀ a v,
    (rs.filterMap Registration.dataVariable?).reverse.find? (·.address = a) = some v →
    i.dataVariables[a]? = some v
  symbols : ∀ s ∈ rs.filterMap Registration.symbol?, s ∈ i.symbols
  functions : ∀ a s,
    (rs.filterMap Registration.functionType?).reverse.find? (·.start = a) = some s →
    i.functions[a]? = some s

theorem or_eq_right {α : Type} {x y : Option α} (h : ∀ a, x = some a → y = some a) :
    x.or y = y := by
  cases x with
  | none => exact Option.none_or
  | some a => rw [Option.some_or, h a rfl]

/-- Of what is there already, only that which is kept in order is added. -/
theorem registerAll_of_holds {i : Image} {rs : List Registration} (h : i.Holds rs) :
    Sink.registerAll i rs = { i with
      regions := i.regions ++ rs.filterMap Registration.region?
      sections := i.sections ++ rs.filterMap Registration.imageSection? } := by
  apply Image.ext
  · rw [platform_registerAll]
    cases hp : (rs.filterMap Registration.platform?).getLast? with
    | none => rfl
    | some p => exact (h.platform p hp).symm
  · exact regions_registerAll i rs
  · exact sections_registerAll i rs
  · refine Std.ExtTreeMap.ext_getElem? fun {name} => ?_
    rw [types_registerAll, or_eq_right (h.types name)]
  · refine Std.ExtTreeMap.ext_getElem? fun {a} => ?_
    rw [dataVariables_registerAll, or_eq_right (h.dataVariables a)]
  · rw [symbols_registerAll, foldl_addNew_of_mem h.symbols]
  · rw [entryPoint?_registerAll, or_eq_right h.entryPoint]
  · refine Std.ExtTreeMap.ext_getElem? fun {a} => ?_
    rw [functions_registerAll, or_eq_right (h.functions a)]

/-- Registrations are there once they are made. -/
theorem holds_registerAll (i : Image) (rs : List Registration) :
    (Sink.registerAll i rs).Holds rs := by
  constructor
  · intro p hp
    rw [platform_registerAll, hp, Option.getD_some]
  · intro a ha
    rw [entryPoint?_registerAll, ha, Option.some_or]
  · intro name d hd
    rw [types_registerAll, hd, Option.some_or]
  · intro a v hv
    rw [dataVariables_registerAll, hv, Option.some_or]
  · intro s hs
    rw [symbols_registerAll]
    exact mem_foldl_addNew hs
  · intro a s hs
    rw [functions_registerAll, hs, Option.some_or]

end Image

/-! ## Annotations -/

namespace Annotations

variable (a : Annotations)

/-- Annotations are of three kinds. -/
theorem filterMap_registrations {α : Type} (kind? : Registration → Option α) :
    a.registrations.filterMap kind? = a.types.filterMap (fun d => kind? (.type d)) ++
      a.dataVariables.filterMap (fun v => kind? (.dataVariable v)) ++
      a.symbols.filterMap fun s => kind? (.symbol s) := by
  simp only [registrations, List.filterMap_append, List.filterMap_map, Function.comp_def]

/-- Registrations of which none is a type or a variable override no annotation. -/
theorem holds_of_append {i : Image} {later : List Registration}
    (types : later.filterMap Registration.type? = [])
    (dataVariables : later.filterMap Registration.dataVariable? = [])
    (h : i.Holds (a.registrations ++ later)) : i.Holds a.registrations := by
  constructor
  · intro p hp
    rw [filterMap_registrations] at hp
    simp [Registration.platform?] at hp
  · intro e he
    rw [filterMap_registrations] at he
    simp [Registration.entryPoint?] at he
  · intro name d hd
    apply h.types
    rw [List.filterMap_append, types, List.append_nil, hd]
  · intro e v hv
    apply h.dataVariables
    rw [List.filterMap_append, dataVariables, List.append_nil, hv]
  · intro s hs
    apply h.symbols
    rw [List.filterMap_append]
    exact List.mem_append_left _ hs
  · intro e s hs
    rw [filterMap_registrations] at hs
    simp [Registration.functionType?] at hs

/-- Annotations that are there already add nothing. -/
theorem registerAll_of_holds {i : Image} (h : i.Holds a.registrations) :
    Sink.registerAll i a.registrations = i := by
  rw [Image.registerAll_of_holds h, filterMap_registrations, filterMap_registrations]
  simp [Registration.region?, Registration.imageSection?]

end Annotations

/-! ## Loads -/

namespace Load

variable (h : Header) (l : Layout) (sections : List ImageSection) (a : Annotations)

theorem region?_registrations :
    (registrations h l sections a).filterMap Registration.region? =
      [l.headerRegion, l.codeRegion] := by
  simp only [registrations, List.filterMap_append, Annotations.filterMap_registrations]
  simp [Layout.regions, List.filterMap_cons, List.filterMap_map, Function.comp_def,
    Registration.region?]

theorem imageSection?_registrations :
    (registrations h l sections a).filterMap Registration.imageSection? = sections := by
  simp only [registrations, List.filterMap_append, Annotations.filterMap_registrations]
  simp [Layout.regions, List.filterMap_cons, List.filterMap_map, Function.comp_def,
    Registration.imageSection?]

theorem type?_registrations :
    (registrations h l sections a).filterMap Registration.type? = a.types := by
  simp only [registrations, List.filterMap_append, Annotations.filterMap_registrations]
  simp [Layout.regions, List.filterMap_cons, List.filterMap_map, Function.comp_def,
    Registration.type?]

theorem dataVariable?_registrations :
    (registrations h l sections a).filterMap Registration.dataVariable? = a.dataVariables := by
  simp only [registrations, List.filterMap_append, Annotations.filterMap_registrations]
  simp [Layout.regions, List.filterMap_cons, List.filterMap_map, Function.comp_def,
    Registration.dataVariable?]

theorem symbol?_registrations :
    (registrations h l sections a).filterMap Registration.symbol? =
      a.symbols ++ [⟨.function, h.entryPoint, entryPointName⟩] := by
  simp only [registrations, List.filterMap_append, Annotations.filterMap_registrations]
  simp [Layout.regions, List.filterMap_cons, List.filterMap_map, Function.comp_def,
    Registration.symbol?]

/-- What a load registers behind its annotations overrides none of them. -/
theorem holds_annotations (i : Image) :
    (Sink.registerAll i (registrations h l sections a)).Holds a.registrations := by
  rw [registrations, List.append_assoc, Sink.registerAll_append]
  exact a.holds_of_append rfl rfl (Image.holds_registerAll _ _)

end Load

/-- Annotating an image a second time changes nothing. Loading data a second time adds their two
regions and their sections once more, and nothing else; and annotating right behind a load changes
nothing at all. -/
theorem again_adds_regions_and_sections_only (source : TypeSource) :
    (∀ (h : Header) (l : Layout) (platform : Platform) (i : Image),
      let rs := (Annotations.build h l platform source).value.registrations
      Sink.registerAll (Sink.registerAll i rs) rs = Sink.registerAll i rs) ∧
    (∀ (h : Header) (length : Nat) (l : Layout) (i : Image), Layout.compute h length = .ok l →
      ∃ j, ((Load.annotate h length source).runOn i).value = (.ok (), j) ∧
        ((Load.annotate h length source).runOn j).value = (.ok (), j)) ∧
    ∀ (data : Bytes) (i j : Image), ((loadInto data source).runOn i).value = (.ok (), j) →
      ∃ hd l sections, parseHeader data = .ok hd ∧ Layout.compute hd data.length = .ok l ∧
        ImageSection.table data hd = .ok sections ∧ sections.length = hd.sectionCount.toNat ∧
        ((loadInto data source).runOn j).value = (.ok (), { j with
          regions := j.regions ++ [l.headerRegion, l.codeRegion]
          sections := j.sections ++ sections }) ∧
        ((Load.annotate hd data.length source).runOn j).value = (.ok (), j) := by
  have annotated (h : Header) (length : Nat) (l : Layout) (i : Image)
      (hl : Layout.compute h length = .ok l) :
      ((Load.annotate h length source).runOn i).value = (.ok (), Sink.registerAll i
        (Annotations.build h l (Platform.ofMachine h.machine) source).value.registrations) := by
    rw [annotate_follows h length source i, Load.annotationPlan, hl]
    rfl
  have twice (a : Annotations) (i : Image) :
      Sink.registerAll (Sink.registerAll i a.registrations) a.registrations =
        Sink.registerAll i a.registrations :=
    a.registerAll_of_holds (Image.holds_registerAll i _)
  refine ⟨fun h l platform i => twice _ i, fun h length l i hl => ?_, fun data i j hload => ?_⟩
  · exact ⟨_, annotated h length l i hl, (annotated h length l _ hl).trans (by rw [twice])⟩
  · obtain ⟨rs, hplan⟩ := (loadInto_follows data source).exists_plan (congrArg Prod.fst hload)
    have run := (hplan ▸ loadInto_follows data source).value_runOn_ok (σ := Image)
    obtain rfl : Sink.registerAll i rs = j := congrArg Prod.snd ((run i).symm.trans hload)
    obtain ⟨-, hd, l, sections, hparse, hlayout, htable, rfl⟩ := Load.plan_eq_ok hplan
    obtain ⟨records, count, -, hsections⟩ := ImageSection.table_eq_ok_iff.1 htable
    have length : sections.length = hd.sectionCount.toNat := by
      rw [hsections, List.length_map, count]
    refine ⟨hd, l, sections, hparse, hlayout, htable, length, ?_, ?_⟩
    · rw [run, Image.registerAll_of_holds (Image.holds_registerAll i _),
        Load.region?_registrations, Load.imageSection?_registrations]
    · rw [annotated hd data.length l _ hlayout, Annotations.registerAll_of_holds]
      exact Load.holds_annotations hd l sections _ i

/-- An image of one section, and a source that defines a name twice and a built-in type anew. -/
theorem again_adds_regions_and_sections_only_redefined :
    let data : Bytes := [0x56, 0x5A, 0x4C, 0x01, 1] ++ List.replicate 75 0
    let source : TypeSource := .fixed
      [⟨"UINTN", .aliasOf .u64⟩, ⟨"UINTN", .aliasOf .u32⟩, ⟨"EFI_TE_IMAGE_HEADER", .aliasOf .u8⟩]
    ∃ j, ((loadInto data source).runOn Image.empty).value = (.ok (), j) ∧
      ∃ hd, parseHeader data = .ok hd ∧
        ((Load.annotate hd data.length source).runOn j).value = (.ok (), j) ∧
      ∃ k, ((loadInto data source).runOn j).value = (.ok (), k) ∧ k.symbols = j.symbols ∧
        k.types = j.types := by
  intro data source
  have loads : ∃ j, ((loadInto data source).runOn Image.empty).value = (.ok (), j) := ⟨_, rfl⟩
  obtain ⟨j, hj⟩ := loads
  obtain ⟨hd, l, sections, hparse, -, -, -, again, annotated⟩ :=
    (again_adds_regions_and_sections_only source).2.2 data _ j hj
  exact ⟨j, hj, hd, hparse, annotated, _, again, rfl, rfl⟩

end TeImage
