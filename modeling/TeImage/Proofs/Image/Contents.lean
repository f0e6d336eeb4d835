/-
What an image holds of its registrations. Each part of an image is touched by registrations of one
kind only and is a fold over these (`part_registerAll`): regions and sections stand in the order of
their registration, under each name, address or start stands what was registered last, and symbols
stand in the order in which they first came. A loaded image holds the registrations that its data
and its type source ask for (`calls_of_load`), so its sections are those of the section records,
and its types the built-in ones overridden by those of the source.
-/
import Mathlib.Tactic
import TeImage.Proofs.Image.Merge
import TeImage.Proofs.Load.Registrations

namespace TeImage

/-! ## Registrations by kind -/

namespace Registration

def region? : Registration → Option Region
  | region r => some r
  | _ => none

def imageSection? : Registration → Option ImageSection
  | imageSection s => some s
  | _ => none

def type? : Registration → Option TypeDef
  | type d => some d
  | _ => none

def dataVariable? : Registration → Option DataVariable
  | dataVariable v => some v
  | _ => none

def symbol? : Registration → Option Symbol
  | symbol s => some s
  | _ => none

def functionType? : Registration → Option FunctionSignature
  | functionType s => some s
  | _ => none

end Registration

attribute [ext] Image

/-! ## Folds -/

/-- Under each key stands the last value of that key, or what stood there before. -/
theorem getElem?_foldl_insert {κ ν : Type} [Ord κ] [Std.TransOrd κ] [Std.LawfulEqOrd κ]
    [DecidableEq κ] (key : ν → κ) (t : Std.ExtTreeMap κ ν compare) (vs : List ν) (k : κ) :
    (vs.foldl (fun t v => t.insert (key v) v) t)[k]? =
      (vs.reverse.find? (key · = k)).or t[k]? := by
  induction vs generalizing t with
  | nil => rfl
  | cons v vs ih =>
    rw [List.foldl_cons, ih, Std.ExtTreeMap.getElem?_insert, List.reverse_cons, List.find?_append,
      List.find?_singleton, Option.or_assoc]
    by_cases h : key v = k <;> simp [h]

/-- What is found by its key has that key. -/
theorem key_of_find? {κ ν : Type} [DecidableEq κ] {key : ν → κ} {k : κ} {v : ν} {vs : List ν}
    (h : vs.find? (key · = k) = some v) : key v = k := by
  simpa using List.find?_some h

/-- A list that takes up values unless it has them. -/
def addNew {α : Type} [DecidableEq α] (l : List α) (a : α) : List α :=
  if a ∈ l then l else l ++ [a]

theorem foldl_addNew {α : Type} [DecidableEq α] (l as : List α) :
    as.foldl addNew l = l ++ (as.filter (· ∉ l)).eraseDups := by
  induction as generalizing l with
  | nil => simp
  | cons a as ih =>
    rw [List.foldl_cons, ih, addNew]
    by_cases h : a ∈ l
    · rw [if_pos h, List.filter_cons_of_neg (by simpa using h)]
    · have others : as.filter (· ∉ l ++ [a]) = (as.filter (· ∉ l)).filter (!· == a) := by
        rw [List.filter_filter]
        refine List.filter_congr fun b _ => ?_
        by_cases hb : b = a <;> simp [hb]
      rw [if_neg h, List.filter_cons_of_pos (by simpa using h), List.eraseDups_cons, others,
        List.append_assoc, List.singleton_append]

theorem foldl_addNew_of_mem {α : Type} [DecidableEq α] {l as : List α} (h : ∀ a ∈ as, a ∈ l) :
    as.foldl addNew l = l := by
  have none_new : as.filter (· ∉ l) = [] :=
    List.filter_eq_nil_iff.2 fun a ha => by simpa using h a ha
  rw [foldl_addNew, none_new, List.eraseDups_nil, List.append_nil]

theorem foldl_addNew_of_nodup {α : Type} [DecidableEq α] {l as : List α} (h : (l ++ as).Nodup) :
    as.foldl addNew l = l ++ as := by
  induction as generalizing l with
  | nil => exact (List.append_nil l).symm
  | cons a as ih =>
    have absent : a ∉ l := fun ha => (List.disjoint_of_nodup_append h) ha (List.mem_cons_self ..)
    rw [List.append_cons] at h
    rw [List.foldl_cons, addNew, if_neg absent, ih h, ← List.append_cons]

theorem mem_foldl_addNew {α : Type} [DecidableEq α] {a : α} {l as : List α} (h : a ∈ as) :
    a ∈ as.foldl addNew l := by
  rw [foldl_addNew, List.mem_append, List.mem_eraseDups, List.mem_filter]
  by_cases ha : a ∈ l
  · exact .inl ha
  · exact .inr ⟨h, by simpa using ha⟩

theorem nodup_foldl_addNew {α : Type} [DecidableEq α] {l : List α} (h : l.Nodup) (as : List α) :
    (as.foldl addNew l).Nodup := by
  induction as generalizing l with
  | nil => exact h
  | cons a as ih =>
    refine ih ?_
    rw [addNew]
    split
    · exact h
    · rename_i absent
      exact List.nodup_append.2 ⟨h, List.nodup_singleton a, by
        rintro b hb c hc rfl
        exact absent (List.mem_singleton.1 hc ▸ hb)⟩

theorem TypeTable.ofList_append (defs defs' : List TypeDef) (name : String) :
    ofList (defs ++ defs') name = (ofList defs' name).or (ofList defs name) := by
  rw [ofList, List.reverse_append, List.find?_append, ofList, ofList]

namespace Image

/-- A part that only the registrations of one kind touch is a fold over these. -/
theorem part_registerAll {α β : Type} (part : Image → β) (kind? : Registration → Option α)
    (step : β → α → β)
    (h : ∀ i r, part (i.register r) = (kind? r).elim (part i) (step (part i)))
    (i : Image) (rs : List Registration) :
    part (Sink.registerAll i rs) = (rs.filterMap kind?).foldl step (part i) := by
  induction rs generalizing i with
  | nil => rfl
  | cons r rs ih =>
    show part (Sink.registerAll (i.register r) rs) = _
    rw [ih, h, List.filterMap_cons]
    cases kind? r <;> rfl

theorem regions_registerAll (i : Image) (rs : List Registration) :
    (Sink.registerAll i rs).regions = i.regions ++ rs.filterMap Registration.region? := by
  rw [part_registerAll regions Registration.region? (fun l r => l ++ [r])
    (by intro i r; cases r <;> rfl), List.foldl_append_eq_append, ← List.flatMap_def,
    List.flatMap_singleton']

theorem sections_registerAll (i : Image) (rs : List Registration) :
    (Sink.registerAll i rs).sections = i.sections ++ rs.filterMap Registration.imageSection? := by
  rw [part_registerAll sections Registration.imageSection? (fun l s => l ++ [s])
    (by intro i r; cases r <;> rfl), List.foldl_append_eq_append, ← List.flatMap_def,
    List.flatMap_singleton']

theorem symbols_registerAll (i : Image) (rs : List Registration) :
    (Sink.registerAll i rs).symbols = (rs.filterMap Registration.symbol?).foldl addNew i.symbols :=
  part_registerAll symbols Registration.symbol? addNew (by intro i r; cases r <;> rfl) i rs

/-- Under a name stands the type of that name that was registered last. -/
theorem types_registerAll (i : Image) (rs : List Registration) (name : String) :
    (Sink.registerAll i rs).types[name]? =
      (TypeTable.ofList (rs.filterMap Registration.type?) name).or i.types[name]? := by
  rw [part_registerAll types Registration.type? (fun t d => t.insert d.name d)
    (by intro i r; cases r <;> rfl)]
  exact getElem?_foldl_insert TypeDef.name i.types _ name

theorem dataVariables_registerAll (i : Image) (rs : List Registration) (a : UInt64) :
    (Sink.registerAll i rs).dataVariables[a]? =
      ((rs.filterMap Registration.dataVariable?).reverse.find? (·.address = a)).or
        i.dataVariables[a]? := by
  rw [part_registerAll dataVariables Registration.dataVariable? (fun t v => t.insert v.address v)
    (by intro i r; cases r <;> rfl)]
  exact getElem?_foldl_insert DataVariable.address i.dataVariables _ a

theorem functions_registerAll (i : Image) (rs : List Registration) (a : UInt64) :
    (Sink.registerAll i rs).functions[a]? =
      ((rs.filterMap Registration.functionType?).reverse.find? (·.start = a)).or
        i.functions[a]? := by
  rw [part_registerAll functions Registration.functionType? (fun t s => t.insert s.start s)
    (by intro i r; cases r <;> rfl)]
  exact getElem?_foldl_insert FunctionSignature.start i.functions _ a

theorem platform_registerAll (i : Image) (rs : List Registration) :
    (Sink.registerAll i rs).platform =
      (rs.filterMap Registration.platform?).getLast?.getD i.platform :=
  congrArg platform (registerAll_reset i i.platform i.entryPoint? rs)

theorem entryPoint?_registerAll (i : Image) (rs : List Registration) :
    (Sink.registerAll i rs).entryPoint? =
      (rs.filterMap Registration.entryPoint?).getLast?.or i.entryPoint? :=
  congrArg entryPoint? (registerAll_reset i i.platform i.entryPoint? rs)

end Image

/-! ## Loaded images -/

namespace Load

theorem imageSection?_calls (h : Header) (records : List SectionRecord) (extra : List TypeDef)
    (length : Nat) : (calls h records extra length).filterMap Registration.imageSection? =
      records.map (ImageSection.ofRecord · h.imageBase) := by
  simp [calls, regionCalls, sectionCalls, typeCalls, variableCalls, symbolCalls, entryCalls,
    Registration.imageSection?, List.filterMap_cons, List.filterMap_map, Function.comp_def,
    ImageSection.ofRecord]

theorem type?_calls (h : Header) (records : List SectionRecord) (extra : List TypeDef)
    (length : Nat) : (calls h records extra length).filterMap Registration.type? =
      Builtin.all ++ extra := by
  simp [calls, regionCalls, sectionCalls, typeCalls, variableCalls, symbolCalls, entryCalls,
    Registration.type?, List.filterMap_cons, List.filterMap_map, Function.comp_def, Builtin.all]

end Load

theorem plan_of_load {data : Bytes} {source : TypeSource} {image : Image}
    (h : (load data source).value = .ok image) :
    ∃ rs, Load.plan data source = .ok rs ∧ image = Sink.registerAll Image.empty rs := by
  rw [value_load] at h
  cases hplan : Load.plan data source with
  | error e => rw [hplan] at h; cases h
  | ok rs =>
    rw [hplan] at h
    cases h
    exact ⟨rs, rfl, rfl⟩

/-- A loaded image is what the calls of its load make of the empty image. -/
theorem calls_of_load {data : Bytes} {source : TypeSource} {image : Image}
    (h : (load data source).value = .ok image) : ∃ (hd : Header) (records : List SectionRecord),
      Header.decode? data = some hd ∧ records.length = hd.sectionCount.toNat ∧
      ImageSection.HoldsTable data records ∧
      image = Sink.registerAll Image.empty
        (Load.calls hd records (source.extra (Platform.ofMachine hd.machine)) data.length) := by
  obtain ⟨rs, hplan, rfl⟩ := plan_of_load h
  obtain ⟨hd, records, hdecode, count, holds, rfl⟩ := Load.calls_of_plan hplan
  exact ⟨hd, records, hdecode, count, holds, rfl⟩

end TeImage
