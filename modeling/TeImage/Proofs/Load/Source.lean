/-
What a type source has a say in. Whether a load fails does not depend on it (`plan_cases`), and
what it returns is registered as types behind the built-in ones and nowhere else
(`withoutTypesAfter_calls`). So two sources make loads of one outcome, with the same registrations
but for their own types, and with the same image but for its types
(`source_touches_only_types`).
-/
import Mathlib.Tactic
import TeImage.Proofs.Image.RoundTrip

namespace TeImage

/-! ## Data that hold their section table -/

/-- The calls of a load are those for the header and the records that its data hold. -/
theorem Load.plan_of_holdsTable {data : Bytes} {h : Header} {records : List SectionRecord}
    (source : TypeSource) (terse : isTerse data = true) (hh : parseHeader data = .ok h)
    (count : records.length = h.sectionCount.toNat)
    (holds : ImageSection.HoldsTable data records) : plan data source =
      .ok (calls h records (source.extra (Platform.ofMachine (machineOf data))) data.length) := by
  obtain ⟨rs, hplan⟩ := plan_of_fits source terse hh (holds.headersSize_le count)
  obtain ⟨found, records', hdecode, count', holds', rfl⟩ := calls_of_plan hplan
  obtain rfl : found = h := Option.some.inj (hdecode.symm.trans (parseHeader_eq_ok_iff.1 hh))
  obtain rfl := ImageSection.HoldsTable.unique holds' holds (count'.trans count.symm)
  obtain ⟨machine, -⟩ := fields_of_parseHeader hh
  rw [hplan, machine]

/-! ## Types among the registrations -/

/-- The registrations without the types that come behind the first `kept` ones. -/
def withoutTypesAfter : (kept : Nat) → List Registration → List Registration
  | _, [] => []
  | 0, .type _ :: rs => withoutTypesAfter 0 rs
  | kept + 1, .type d :: rs => .type d :: withoutTypesAfter kept rs
  | kept, r :: rs => r :: withoutTypesAfter kept rs

theorem withoutTypesAfter_cons {r : Registration} (h : r.type? = none) (kept : Nat)
    (rs : List Registration) :
    withoutTypesAfter kept (r :: rs) = r :: withoutTypesAfter kept rs := by
  cases r with
  | type d => cases h
  | _ => cases kept <;> rfl

theorem withoutTypesAfter_append {rs : List Registration} (h : ∀ r ∈ rs, r.type? = none)
    (kept : Nat) (rs' : List Registration) :
    withoutTypesAfter kept (rs ++ rs') = rs ++ withoutTypesAfter kept rs' := by
  induction rs with
  | nil => rfl
  | cons r rs ih =>
    rw [List.cons_append, withoutTypesAfter_cons (h r (List.mem_cons_self ..)),
      ih fun r hr => h r (List.mem_cons_of_mem _ hr), List.cons_append]

theorem withoutTypesAfter_types (defs : List TypeDef) (rs : List Registration) :
    withoutTypesAfter 0 (defs.map .type ++ rs) = withoutTypesAfter 0 rs := by
  induction defs with
  | nil => rfl
  | cons d defs ih => exact ih

/-- Registrations of other kinds are all kept. -/
theorem filter_withoutTypesAfter (kept : Nat) (rs : List Registration) :
    (withoutTypesAfter kept rs).filter (·.type?.isNone) = rs.filter (·.type?.isNone) := by
  induction rs generalizing kept with
  | nil => rfl
  | cons r rs ih =>
    cases r with
    | type d => cases kept <;> exact ih _
    | _ => rw [withoutTypesAfter_cons rfl, List.filter_cons, List.filter_cons, ih]

namespace Load

/-- The types are called in one place, and what is called before and behind them does not depend
on those of the source. -/
theorem exists_calls_eq (h : Header) (records : List SectionRecord) (length : Nat) :
    ∃ front behind : List Registration, (∀ r ∈ front ++ behind, r.type? = none) ∧
      ∀ extra, calls h records extra length = front ++ (typeCalls extra ++ behind) := by
  let base := h.imageBase + h.strippedSize.toUInt64 - 40
  let entry := h.imageBase + h.entryAddress.toUInt64
  let platform := Platform.ofMachine h.machine
  refine ⟨[.platform platform] ++ regionCalls h base length ++ sectionCalls h records,
    variableCalls h base ++ symbolCalls h base ++ entryCalls entry platform, ?_, fun extra => ?_⟩
  · simp only [regionCalls, sectionCalls, variableCalls, symbolCalls, entryCalls,
      List.forall_mem_append, List.forall_mem_cons, List.forall_mem_map, Registration.type?,
      List.not_mem_nil, false_imp_iff, implies_true, and_self]
  · simp only [calls, List.append_assoc]
    rfl

/-- Without the types of the source the calls are those of a source that has none. -/
theorem withoutTypesAfter_calls (h : Header) (records : List SectionRecord)
    (extra : List TypeDef) (length : Nat) :
    withoutTypesAfter 3 (calls h records extra length) = calls h records [] length := by
  obtain ⟨front, behind, others, split⟩ := exists_calls_eq h records length
  obtain ⟨hfront, hbehind⟩ := List.forall_mem_append.1 others
  have types : withoutTypesAfter 3 (typeCalls extra ++ behind) =
      typeCalls [] ++ withoutTypesAfter 0 (behind ++ []) := by
    show _ :: _ :: _ :: withoutTypesAfter 0 (extra.map .type ++ behind) = _
    rw [withoutTypesAfter_types, List.append_nil]
    rfl
  rw [split, split, withoutTypesAfter_append hfront, types, withoutTypesAfter_append hbehind,
    withoutTypesAfter, List.append_nil]

end Load

/-! ## Images up to their types -/

namespace Image

def withTypes (t : Std.ExtTreeMap String TypeDef compare) (i : Image) : Image :=
  { i with types := t }

/-- Up to its types an image is made by the registrations of other kinds. -/
theorem registerAll_withTypes (t : Std.ExtTreeMap String TypeDef compare) (i : Image)
    (rs : List Registration) : (Sink.registerAll i rs).withTypes t =
      Sink.registerAll (i.withTypes t) (rs.filter (·.type?.isNone)) := by
  induction rs generalizing i with
  | nil => rfl
  | cons r rs ih =>
    show (Sink.registerAll (i.register r) rs).withTypes t = _
    rw [ih]
    cases r <;> rfl

/-- Registrations that differ in types alone make images that differ in their types alone. -/
theorem registerAll_congr_types {kept : Nat} {rs rs' : List Registration}
    (h : withoutTypesAfter kept rs = withoutTypesAfter kept rs') (i : Image) :
    Sink.registerAll i rs' = { Sink.registerAll i rs with
      types := (Sink.registerAll i rs').types } := by
  have same (t) : (Sink.registerAll i rs).withTypes t = (Sink.registerAll i rs').withTypes t := by
    rw [registerAll_withTypes, registerAll_withTypes, ← filter_withoutTypesAfter kept rs, h,
      filter_withoutTypesAfter]
  exact (same (Sink.registerAll i rs').types).symm

end Image

/-! ## Loads -/

/-- Either no source gets the data loaded, or every source does, with calls that differ in its
own types. -/
theorem Load.plan_cases (data : Bytes) :
    (∃ e, ∀ source, plan data source = .error e) ∨
      ∃ (hd : Header) (records : List SectionRecord), ∀ source, plan data source = .ok
        (calls hd records (source.extra (Platform.ofMachine (machineOf data))) data.length) := by
  rcases isTerse_cases data with refused | ⟨terse, hd, hh⟩
  · exact .inl ⟨_, fun source => plan_of_not_terse source refused⟩
  · rcases Nat.lt_or_ge data.length hd.headersSize with short | fits
    · exact .inl ⟨_, fun source => plan_of_truncated source terse hh short⟩
    · obtain ⟨records, count, holds⟩ := ImageSection.exists_holdsTable fits
      exact .inr ⟨hd, records, fun source => plan_of_holdsTable source terse hh count holds⟩

/-- The recorded calls of a load are its plan. -/
theorem Load.plan_of_recorded {data : Bytes} {source : TypeSource} {calls : List Registration}
    (h : ((loadInto data source).runOn (⟨[]⟩ : CallLog)).value = (.ok (), ⟨calls⟩)) :
    plan data source = .ok calls := by
  rw [loadInto_follows data source (⟨[]⟩ : CallLog)] at h
  cases hplan : plan data source with
  | error e => rw [hplan] at h; cases h
  | ok rs =>
    rw [hplan] at h
    obtain ⟨-, h⟩ := Prod.mk.inj h
    rw [CallLog.registerAll_eq] at h
    exact congrArg Except.ok (congrArg CallLog.calls h)

/-- A load has the same outcome with either of two sources. If it does not fail its calls are the
same once the types behind the first three are left out; the types are the built-in ones and then
those of the source. Two loads into one image leave images that differ in their types only, and a
source that fails is not told from one that has no definitions. -/
theorem source_touches_only_types (data : Bytes) (source source' : TypeSource) :
    let platform := Platform.ofMachine (machineOf data)
    (∀ {σ : Type} [Sink σ] (s : σ), ((loadInto data source).runOn s).value.1 =
      ((loadInto data source').runOn s).value.1) ∧
    (∀ calls calls' : List Registration,
      ((loadInto data source).runOn (⟨[]⟩ : CallLog)).value = (.ok (), ⟨calls⟩) →
      ((loadInto data source').runOn (⟨[]⟩ : CallLog)).value = (.ok (), ⟨calls'⟩) →
        withoutTypesAfter 3 calls = withoutTypesAfter 3 calls' ∧
        calls.filterMap Registration.type? = Builtin.all ++ source.extra platform ∧
        calls'.filterMap Registration.type? = Builtin.all ++ source'.extra platform) ∧
    (∀ i : Image, ((loadInto data source').runOn i).value.2 =
      { ((loadInto data source).runOn i).value.2 with
        types := ((loadInto data source').runOn i).value.2.types }) ∧
    ∀ {σ : Type} [Sink σ] (reasons : List String) (s : σ),
      ((loadInto data (.failing reasons)).runOn s).value =
        ((loadInto data .empty).runOn s).value := by
  intro platform
  rcases Load.plan_cases data with ⟨e, fails⟩ | ⟨hd, records, loads⟩
  · have run {τ : Type} [Sink τ] (source : TypeSource) (s : τ) :
        ((loadInto data source).runOn s).value = (.error e, s) := by
      rw [loadInto_follows data source s, fails]
    refine ⟨fun s => by rw [run, run], fun calls calls' h => ?_, fun i => by rw [run, run],
      fun reasons s => by rw [run, run]⟩
    rw [run] at h
    cases h
  · have run {τ : Type} [Sink τ] (source : TypeSource) (s : τ) :
        ((loadInto data source).runOn s).value = (.ok (), Sink.registerAll s
          (Load.calls hd records (source.extra platform) data.length)) := by
      rw [loadInto_follows data source s, loads]
    have same (source : TypeSource) :=
      Load.withoutTypesAfter_calls hd records (source.extra platform) data.length
    refine ⟨fun s => by rw [run, run], fun calls calls' h h' => ?_, fun i => ?_,
      fun reasons s => by rw [run, run]; rfl⟩
    · obtain rfl := Except.ok.inj ((loads source).symm.trans (Load.plan_of_recorded h))
      obtain rfl := Except.ok.inj ((loads source').symm.trans (Load.plan_of_recorded h'))
      exact ⟨(same source).trans (same source').symm, Load.type?_calls .., Load.type?_calls ..⟩
    · rw [run, run]
      exact Image.registerAll_congr_types ((same source).trans (same source').symm) i

/-- A source that defines a built-in type anew, and one that fails. -/
theorem source_touches_only_types_builtin :
    let data : Bytes := [0x56, 0x5A, 0x4C, 0x01, 1] ++ List.replicate 75 0
    let source : TypeSource := .fixed [⟨"EFI_TE_IMAGE_HEADER", .aliasOf .u8⟩]
    ∃ calls calls', ((loadInto data source).runOn (⟨[]⟩ : CallLog)).value = (.ok (), ⟨calls⟩) ∧
      ((loadInto data (.failing ["no disk"])).runOn (⟨[]⟩ : CallLog)).value =
        (.ok (), ⟨calls'⟩) ∧
      withoutTypesAfter 3 calls = withoutTypesAfter 3 calls' := by
  intro data source
  have loads : ∃ calls, ((loadInto data source).runOn (⟨[]⟩ : CallLog)).value =
      (.ok (), ⟨calls⟩) := ⟨_, rfl⟩
  have loads' : ∃ calls, ((loadInto data (.failing ["no disk"])).runOn (⟨[]⟩ : CallLog)).value =
      (.ok (), ⟨calls⟩) := ⟨_, rfl⟩
  obtain ⟨calls, h⟩ := loads
  obtain ⟨calls', h'⟩ := loads'
  exact ⟨calls, calls', h, h', ((source_touches_only_types data _ _).2.1 calls calls' h h').1⟩

end TeImage
