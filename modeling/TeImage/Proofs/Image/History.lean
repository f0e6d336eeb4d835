/-
An image told from its history. A sink's calls, from the first one on, determine the image: what is
kept in order is there in the order of the calls, what is kept by key is there in its last version,
and a symbol stands where it first came (`Reflects`). So a stored value is found under its own name,
address or start, and no symbol is there twice (`Coherent`). A session of loads, annotations,
registrations and questions leaves the image of the calls that its steps make
(`image_reflects_history`).
-/
import Mathlib.Tactic
import TeImage.Proofs.Image.Contents
import TeImage.Proofs.Session

namespace TeImage

/-! ## What the calls say -/

namespace Image

/-- An image is what the given calls say of each of its parts. -/
structure Reflects (i : Image) (calls : List Registration) : Prop where
  platform : i.platform =
    (calls.filterMap Registration.platform?).getLast?.getD .unresolved
  entryPoint : i.entryPoint? = (calls.filterMap Registration.entryPoint?).getLast?
  regions : i.regions = calls.filterMap Registration.region?
  sections : i.sections = calls.filterMap Registration.imageSection?
  /-- The first one of equal symbols stays. -/
  symbols : i.symbols = (calls.filterMap Registration.symbol?).eraseDups
  /-- The last one of a name counts. -/
  types : ∀ name : String, i.types[name]? =
    (calls.filterMap Registration.type?).reverse.find? (·.name = name)
  /-- The last one at an address counts. -/
  dataVariables : ∀ a : UInt64, i.dataVariables[a]? =
    (calls.filterMap Registration.dataVariable?).reverse.find? (·.address = a)
  /-- The last one of a start counts. -/
  functions : ∀ a : UInt64, i.functions[a]? =
    (calls.filterMap Registration.functionType?).reverse.find? (·.start = a)

/-- No symbol is there twice, and what is kept by key is kept under its own key. -/
structure Coherent (i : Image) : Prop where
  symbols_nodup : i.symbols.Nodup
  name_of_type : ∀ (name : String) (d : TypeDef), i.types[name]? = some d → d.name = name
  address_of_dataVariable : ∀ (a : UInt64) (v : DataVariable),
    i.dataVariables[a]? = some v → v.address = a
  start_of_function : ∀ (a : UInt64) (s : FunctionSignature),
    i.functions[a]? = some s → s.start = a
  start_of_entrySignature : ∀ s : FunctionSignature,
    i.entrySignature? = some s → i.entryPoint? = some s.start

/-- Only the platform of an image without calls has to be made up. -/
theorem reflects_registerAll (calls : List Registration) :
    (Sink.registerAll empty calls).Reflects calls where
  platform := platform_registerAll empty calls
  entryPoint := by rw [entryPoint?_registerAll]; exact Option.or_none
  regions := regions_registerAll empty calls
  sections := sections_registerAll empty calls
  symbols := by rw [symbols_registerAll, foldl_addNew]; simp [empty]
  types name := by rw [types_registerAll]; exact Option.or_none
  dataVariables a := by rw [dataVariables_registerAll]; exact Option.or_none
  functions a := by rw [functions_registerAll]; exact Option.or_none

/-- The calls leave nothing open. -/
theorem Reflects.unique {i j : Image} {calls : List Registration} (hi : i.Reflects calls)
    (hj : j.Reflects calls) : i = j := by
  apply Image.ext
  · rw [hi.platform, hj.platform]
  · rw [hi.regions, hj.regions]
  · rw [hi.sections, hj.sections]
  · exact Std.ExtTreeMap.ext_getElem? fun {name} => (hi.types name).trans (hj.types name).symm
  · exact Std.ExtTreeMap.ext_getElem? fun {a} =>
      (hi.dataVariables a).trans (hj.dataVariables a).symm
  · rw [hi.symbols, hj.symbols]
  · rw [hi.entryPoint, hj.entryPoint]
  · exact Std.ExtTreeMap.ext_getElem? fun {a} => (hi.functions a).trans (hj.functions a).symm

theorem reflects_iff {i : Image} {calls : List Registration} :
    i.Reflects calls ↔ i = Sink.registerAll empty calls := by
  constructor
  · intro h
    exact h.unique (reflects_registerAll calls)
  · rintro rfl
    exact reflects_registerAll calls

theorem Reflects.coherent {i : Image} {calls : List Registration} (h : i.Reflects calls) :
    i.Coherent := by
  have functions (a : UInt64) (s : FunctionSignature) (hs : i.functions[a]? = some s) :
      s.start = a := key_of_find? ((h.functions a).symm.trans hs)
  refine ⟨?_, fun name d hd => key_of_find? ((h.types name).symm.trans hd),
    fun a v hv => key_of_find? ((h.dataVariables a).symm.trans hv), functions, fun s hs => ?_⟩
  · have := nodup_foldl_addNew List.nodup_nil (calls.filterMap Registration.symbol?)
    rw [foldl_addNew] at this
    rw [h.symbols]
    simpa using this
  · obtain ⟨a, ha, hs⟩ := Option.bind_eq_some_iff.1 hs
    rw [ha, functions a s hs]

end Image

/-! ## What a session calls -/

/-- The calls that a step makes, as a sink records them. -/
def Step.calls : Step → List Registration
  | load data source => ((loadInto data source).runOn (⟨[]⟩ : CallLog)).value.2.calls
  | annotate h length source => ((Load.annotate h length source).runOn (⟨[]⟩ : CallLog)).value.2.calls
  | register r => ((LoadM.register r).runOn (⟨[]⟩ : CallLog)).value.2.calls
  | typeSize _ | typeNamed _ | symbolNamed _ | entrySignature | dump => []

/-- What runs by one plan on any sink leaves the image that takes up the recorded calls. -/
theorem image_of_recorded {x : LoadM Image Unit} {x' : LoadM CallLog Unit}
    {plan : Except LoadError (List Registration)} (hx : LoadM.Follows x plan)
    (hx' : LoadM.Follows x' plan) (i : Image) :
    ((do x; return .done : LoadM Image Answer).runOn i).value.2 =
      Sink.registerAll i (x'.runOn ⟨[]⟩).value.2.calls := by
  cases plan with
  | error e =>
    rw [hx' ⟨[]⟩, LoadM.value_runOn_bind_error (hx i)]
    rfl
  | ok rs =>
    rw [hx'.value_runOn_ok, CallLog.registerAll_eq, LoadM.value_runOn_bind_ok (hx i)]
    rfl

theorem Step.image_run (step : Step) (i : Image) :
    (step.run.runOn i).value.2 = Sink.registerAll i step.calls := by
  cases step with
  | load data source =>
    exact image_of_recorded (loadInto_follows data source) (loadInto_follows data source) i
  | annotate h length source =>
    exact image_of_recorded (annotate_follows h length source) (annotate_follows h length source) i
  | register r => exact image_of_recorded (LoadM.follows_register r) (LoadM.follows_register r) i
  | _ => rfl

theorem imageAfter_eq_registerAll (steps : List Step) (i : Image) :
    imageAfter steps i = Sink.registerAll i (steps.flatMap Step.calls) := by
  induction steps generalizing i with
  | nil => rfl
  | cons step steps ih =>
    rw [imageAfter_cons, ih, Step.image_run, List.flatMap_cons, Sink.registerAll_append]

/-- Any calls, made one by one or by the steps of any session, leave the one image that reflects
all of them from the first one on. -/
theorem image_reflects_history :
    (∀ calls : List Registration,
      (∀ i : Image, i.Reflects calls ↔ i = Sink.registerAll Image.empty calls) ∧
      (Sink.registerAll Image.empty calls).Coherent) ∧
    ∀ steps : List Step,
      (∀ i : Image, i.Reflects (steps.flatMap Step.calls) ↔ i = imageAfter steps Image.empty) ∧
      (imageAfter steps Image.empty).Coherent := by
  have all (calls : List Registration) :
      (∀ i : Image, i.Reflects calls ↔ i = Sink.registerAll Image.empty calls) ∧
      (Sink.registerAll Image.empty calls).Coherent :=
    ⟨fun _ => Image.reflects_iff, (Image.reflects_registerAll calls).coherent⟩
  refine ⟨all, fun steps => ?_⟩
  rw [imageAfter_eq_registerAll]
  exact all _

end TeImage
