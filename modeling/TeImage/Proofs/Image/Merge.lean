/-
Images as sums of registrations. Taking up registrations on top of an image is merging it with the
image that the same registrations make alone (`registerAll_merge`), up to platform and entry point,
which the last registration of their kind decides. A load sets both, so a load into a used image
is a merge with a fresh load.
-/
import Mathlib.Tactic
import TeImage.Proofs.Load.Run

namespace TeImage

/-! ## Platform and entry point -/

namespace Registration

def platform? : Registration → Option Platform
  | platform p => some p
  | _ => none

def entryPoint? : Registration → Option UInt64
  | entryPoint a => some a
  | _ => none

end Registration

/-- The head of a list gives the last value only if its tail gives none. -/
theorem getLast?_filterMap_cons {α β : Type} (f : α → Option β) (a : α) (as : List α) :
    ((a :: as).filterMap f).getLast? = (as.filterMap f).getLast?.or (f a) := by
  rw [List.filterMap_cons]
  cases f a with
  | none => rw [Option.or_none]
  | some b =>
    rw [List.getLast?_cons]
    cases (as.filterMap f).getLast? <;> rfl

theorem exists_getLast?_filterMap {α β : Type} {f : α → Option β} {a : α} {b : β} {as : List α}
    (ha : a ∈ as) (hf : f a = some b) : ∃ c, (as.filterMap f).getLast? = some c := by
  have hb : b ∈ as.filterMap f := List.mem_filterMap.2 ⟨a, ha, hf⟩
  exact ⟨_, List.getLast?_eq_some_getLast (List.ne_nil_of_mem hb)⟩

namespace Image

theorem register_reset (i : Image) (p : Platform) (a? : Option UInt64) (r : Registration) :
    { i with platform := p, entryPoint? := a? }.register r =
      { i.register r with
        platform := r.platform?.getD p
        entryPoint? := r.entryPoint?.or a? } := by
  cases r <;> rfl

/-- The last platform and the last entry point that are registered hold, and the rest of the image
comes about without regard to these two. -/
theorem registerAll_reset (i : Image) (p : Platform) (a? : Option UInt64) (rs : List Registration) :
    Sink.registerAll { i with platform := p, entryPoint? := a? } rs =
      { Sink.registerAll i rs with
        platform := (rs.filterMap Registration.platform?).getLast?.getD p
        entryPoint? := (rs.filterMap Registration.entryPoint?).getLast?.or a? } := by
  induction rs generalizing i p a? with
  | nil => rfl
  | cons r rs ih =>
    show Sink.registerAll (register { i with platform := p, entryPoint? := a? } r) rs = _
    rw [register_reset, ih, getLast?_filterMap_cons, getLast?_filterMap_cons, Option.getD_or,
      Option.or_assoc]
    rfl

/-- Registrations that set platform and entry point do not depend on what these were. -/
theorem registerAll_reset_of_mem {p : Platform} {a : UInt64} {rs : List Registration}
    (hp : .platform p ∈ rs) (ha : .entryPoint a ∈ rs) (i : Image) (p' : Platform)
    (a'? : Option UInt64) :
    Sink.registerAll { i with platform := p', entryPoint? := a'? } rs = Sink.registerAll i rs := by
  obtain ⟨q, hq⟩ := exists_getLast?_filterMap (f := Registration.platform?) hp rfl
  obtain ⟨b, hb⟩ := exists_getLast?_filterMap (f := Registration.entryPoint?) ha rfl
  -- resetting both to what they are changes nothing
  have same := registerAll_reset i i.platform i.entryPoint? rs
  rw [hq, hb] at same
  rw [registerAll_reset, hq, hb]
  exact same.symm

end Image

/-! ## Merging -/

/-- Where both maps have a key, the value of the second counts. -/
theorem union_insert {α β : Type} {cmp : α → α → Ordering} [Std.TransCmp cmp]
    (t t' : Std.ExtTreeMap α β cmp) (k : α) (v : β) : t ∪ t'.insert k v = (t ∪ t').insert k v :=
  Std.ExtTreeMap.union_insert_right_eq_insert_union (p := ⟨k, v⟩)

namespace Image

/-- `i` overridden by `j`: what is kept in order is appended, what is kept by key is replaced key
by key, a symbol that is there is not added again. -/
def merge (i j : Image) : Image where
  platform := j.platform
  regions := i.regions ++ j.regions
  sections := i.sections ++ j.sections
  types := i.types ∪ j.types
  dataVariables := i.dataVariables ∪ j.dataVariables
  symbols := i.symbols ++ j.symbols.filter (· ∉ i.symbols)
  entryPoint? := j.entryPoint?
  functions := i.functions ∪ j.functions

/-- A registration on top of a merge is one on top of its second part. -/
theorem register_merge (i j : Image) (r : Registration) :
    (i.merge j).register r = i.merge (j.register r) := by
  cases r with
  | platform p => rfl
  | region r => simp only [register, merge, List.append_assoc]
  | imageSection s => simp only [register, merge, List.append_assoc]
  | type d => simp only [register, merge, union_insert]
  | dataVariable v => simp only [register, merge, union_insert]
  | symbol s =>
    -- the symbol is new to the merge just if it is new to both parts
    by_cases hi : s ∈ i.symbols <;> by_cases hj : s ∈ j.symbols <;> simp [register, merge, hi, hj]
  | entryPoint a => rfl
  | functionType f => simp only [register, merge, union_insert]

theorem registerAll_merge (i j : Image) (rs : List Registration) :
    Sink.registerAll (i.merge j) rs = i.merge (Sink.registerAll j rs) := by
  induction rs generalizing j with
  | nil => rfl
  | cons r rs ih =>
    show Sink.registerAll ((i.merge j).register r) rs = _
    rw [register_merge, ih]
    rfl

theorem union_empty {α β : Type} {cmp : α → α → Ordering} [Std.TransCmp cmp] [Std.LawfulEqCmp cmp]
    (t : Std.ExtTreeMap α β cmp) : t ∪ ∅ = t := by
  apply Std.ExtTreeMap.ext_getElem?
  intro k
  rw [Std.ExtTreeMap.getElem?_union, Std.ExtTreeMap.getElem?_empty, Option.none_or]

theorem merge_empty (i : Image) :
    i.merge empty = { i with platform := .unresolved, entryPoint? := none } := by
  simp only [merge, empty, union_empty, List.append_nil, List.filter_nil]

end Image

/-! ## Loads -/

theorem value_load (data : Bytes) (source : TypeSource) :
    (load data source).value = (Load.plan data source).map (Sink.registerAll Image.empty) := by
  have run := loadInto_follows data source Image.empty
  show Except.map (fun _ => ((loadInto data source).runOn Image.empty).value.2)
    ((loadInto data source).runOn Image.empty).value.1 = _
  rw [run]
  cases Load.plan data source <;> rfl

/-- A load into a used image overrides that image with the image of a fresh load. -/
theorem loadInto_eq_merge {data : Bytes} {source : TypeSource} {fresh : Image}
    (h : (load data source).value = .ok fresh) (i : Image) :
    ((loadInto data source).runOn i).value = (.ok (), i.merge fresh) ∧
      (∀ name : String, (i.merge fresh).types[name]? = fresh.types[name]?.or i.types[name]?) ∧
      (∀ a : UInt64, (i.merge fresh).dataVariables[a]? =
        fresh.dataVariables[a]?.or i.dataVariables[a]?) ∧
      ∀ a : UInt64, (i.merge fresh).functions[a]? = fresh.functions[a]?.or i.functions[a]? := by
  refine ⟨?_, fun _ => Std.ExtTreeMap.getElem?_union, fun _ => Std.ExtTreeMap.getElem?_union,
    fun _ => Std.ExtTreeMap.getElem?_union⟩
  rw [value_load] at h
  rw [loadInto_follows data source i]
  cases hp : Load.plan data source with
  | error e => rw [hp] at h; cases h
  | ok rs =>
    rw [hp] at h
    cases h
    obtain ⟨-, hd, l, sections, -, -, -, hrs⟩ := Load.plan_eq_ok hp
    have hplatform : .platform (Platform.ofMachine hd.machine) ∈ rs := by
      simp [hrs, Load.registrations]
    have hentry : .entryPoint hd.entryPoint ∈ rs := by simp [hrs, Load.registrations]
    rw [← Image.registerAll_merge, Image.merge_empty,
      Image.registerAll_reset_of_mem hplatform hentry]

/-- An image of one section, and a source that defines a name twice. -/
theorem loadInto_eq_merge_twice :
    let data : Bytes := [0x56, 0x5A, 0x4C, 0x01, 1] ++ List.replicate 75 0
    let source : TypeSource := .fixed [⟨"UINTN", .aliasOf .u64⟩, ⟨"UINTN", .aliasOf .u32⟩]
    ∃ fresh, (load data source).value = .ok fresh ∧
      ((loadInto data source).runOn fresh).value = (.ok (), fresh.merge fresh) :=
  ⟨_, rfl, (loadInto_eq_merge rfl _).1⟩

end TeImage
