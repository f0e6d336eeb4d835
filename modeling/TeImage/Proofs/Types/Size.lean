/-
The computed size is the exact size. A type has a size just when its expansion meets only known
names, goes no deeper than the levels reach, and nothing in it needs more than 64 bits, not even
what counts for nothing, such as the elements of an empty array. The computation never looks at the
expansion as a whole, so the proof goes down the levels and compares the two node by node.
-/
import TeImage.Proofs.Types.Expansion
import TeImage.Types.Builtin
import Mathlib.Tactic

namespace TeImage

/-! ## Arithmetic that notices when 64 bits run out -/

namespace Size

theorem add_eq_some_iff {a b v : UInt64} : add a b = some v ↔ v.toNat = a.toNat + b.toNat := by
  have hv := v.toNat_lt_size
  unfold add
  split
  case isTrue h =>
    rw [Option.some.injEq, ← UInt64.toNat_inj, UInt64.toNat_add, Nat.mod_eq_of_lt h]
    exact eq_comm
  case isFalse h => simp only [reduceCtorEq, false_iff]; omega

theorem mul_eq_some_iff {a b v : UInt64} : mul a b = some v ↔ v.toNat = a.toNat * b.toNat := by
  have hv := v.toNat_lt_size
  unfold mul
  split
  case isTrue h =>
    rw [Option.some.injEq, ← UInt64.toNat_inj, UInt64.toNat_mul, Nat.mod_eq_of_lt h]
    exact eq_comm
  case isFalse h => simp only [reduceCtorEq, false_iff]; omega

theorem toNat_max (a b : UInt64) : (max a b).toNat = max a.toNat b.toNat := by
  have hmax : max a b = if a ≤ b then b else a := rfl
  rw [hmax]
  by_cases h : a ≤ b
  · rw [if_pos h, max_eq_right (UInt64.le_iff_toNat_le.mp h)]
  · rw [if_neg h, max_eq_left (Nat.le_of_not_le (mt UInt64.le_iff_toNat_le.mpr h))]

variable {α : Type} {size : α → Option UInt64} {exact : α → Nat}

/-- Every one of the things has the size that `exact` says. -/
def Agrees (size : α → Option UInt64) (exact : α → Nat) (l : List α) : Prop :=
  ∀ a ∈ l, ∃ v, size a = some v ∧ v.toNat = exact a

theorem exists_agrees {l : List α} (h : ∀ a ∈ l, (size a).isSome) : ∃ exact, Agrees size exact l := by
  refine ⟨fun a => ((size a).getD 0).toNat, fun a ha => ?_⟩
  obtain ⟨v, hv⟩ := Option.isSome_iff_exists.mp (h a ha)
  exact ⟨v, hv, by simp [hv]⟩

/-- Whatever the exact sizes are, sizes that agree with them are added up exactly. -/
theorem total_eq_some_iff : ∀ {l : List α} {v : UInt64}, Agrees size exact l →
    (total size l = some v ↔ v.toNat = (l.map exact).sum)
  | [], v, _ => by
    rw [total, Option.some.injEq, ← UInt64.toNat_inj]
    exact eq_comm
  | a :: rest, v, h => by
    obtain ⟨⟨first, hfirst, hexact⟩, hrest⟩ := List.forall_mem_cons.mp h
    simp only [total, hfirst, List.map_cons, List.sum_cons, Option.bind_eq_bind, Option.bind_some,
      Option.bind_eq_some_iff, add_eq_some_iff, total_eq_some_iff hrest, hexact]
    constructor
    · rintro ⟨others, hothers, hv⟩
      omega
    · intro hv
      have fits := v.toNat_lt_size
      refine ⟨UInt64.ofNat (rest.map exact).sum, ?_, ?_⟩
      · exact UInt64.toNat_ofNat_of_lt' (by omega)
      · rw [UInt64.toNat_ofNat_of_lt' (by omega)]; exact hv

/-- Whatever the exact sizes are, the largest of sizes that agree with them is the largest exactly. -/
theorem largest_eq_some_iff : ∀ {l : List α} {v : UInt64}, Agrees size exact l →
    (largest size l = some v ↔ v.toNat = (l.map exact).foldr max 0)
  | [], v, _ => by
    rw [largest, Option.some.injEq, ← UInt64.toNat_inj]
    exact eq_comm
  | a :: rest, v, h => by
    obtain ⟨⟨first, hfirst, hexact⟩, hrest⟩ := List.forall_mem_cons.mp h
    have hfits := first.toNat_lt_size
    simp only [largest, hfirst, List.map_cons, List.foldr_cons, Option.bind_eq_bind,
      Option.bind_some, Option.bind_eq_some_iff, Option.some.injEq, pure, largest_eq_some_iff hrest,
      ← UInt64.toNat_inj, toNat_max, hexact]
    constructor
    · rintro ⟨others, hothers, hv⟩
      rw [← hv, hothers]
    · intro hv
      have fits := v.toNat_lt_size
      have := le_max_right (exact a) ((rest.map exact).foldr max 0)
      have hothers : (UInt64.ofNat ((rest.map exact).foldr max 0)).toNat =
          (rest.map exact).foldr max 0 := UInt64.toNat_ofNat_of_lt' (by omega)
      exact ⟨_, hothers, by rw [hothers, hv]⟩

theorem isSome_of_total : ∀ {l : List α} {v : UInt64}, total size l = some v →
    ∀ a ∈ l, (size a).isSome
  | [], _, _ => List.forall_mem_nil _
  | first :: rest, v, h => by
    simp only [total, Option.bind_eq_bind, Option.bind_eq_some_iff] at h
    obtain ⟨w, hfirst, others, hothers, -⟩ := h
    exact List.forall_mem_cons.mpr ⟨by rw [hfirst]; rfl, isSome_of_total hothers⟩

theorem isSome_of_largest : ∀ {l : List α} {v : UInt64}, largest size l = some v →
    ∀ a ∈ l, (size a).isSome
  | [], _, _ => List.forall_mem_nil _
  | first :: rest, v, h => by
    simp only [largest, Option.bind_eq_bind, Option.bind_eq_some_iff] at h
    obtain ⟨w, hfirst, others, hothers, -⟩ := h
    exact List.forall_mem_cons.mpr ⟨by rw [hfirst]; rfl, isSome_of_largest hothers⟩

end Size

/-! ## Sizes of nodes -/

namespace TypeNode

/-- The size of a type, or of a definition. -/
def size (pointerSize : UInt64) (types : TypeTable) : TypeNode → Option UInt64
  | ref t => t.size pointerSize types
  | definition d => d.size pointerSize types

/-- The size of a node when `levels` levels may be expanded, its own among them. -/
def sizeWithin (pointerSize : UInt64) (types : TypeTable) (levels : Nat) :
    TypeNode → Option UInt64
  | ref t => t.sizeWithin pointerSize types levels
  | definition d => d.kind.sizeBy (TypeRef.sizeWithin pointerSize types levels)
      (TypeRef.sizeWithin pointerSize types (levels - 1))

variable {pointerSize v : UInt64} {types : TypeTable} {a b : TypeNode} {k levels n : Nat}

theorem size_eq_sizeWithin (a : TypeNode) :
    a.size pointerSize types = a.sizeWithin pointerSize types TypeRef.maxLevels := by
  cases a <;> rfl

theorem sizeWithin_named (name : String) :
    (ref (.named name)).sizeWithin pointerSize types (levels + 1) =
      (types name).bind fun d => (definition d).sizeWithin pointerSize types levels := by
  cases levels <;> rfl

theorem pos_of_isSome_sizeWithin : ∀ {levels : Nat} {t : TypeRef},
    ((ref t).sizeWithin pointerSize types levels).isSome → 0 < levels
  | _ + 1, _, _ => Nat.succ_pos _

theorem isSome_of_isSome_sizeWithin : ∀ {levels : Nat} {name : String},
    ((ref (.named name)).sizeWithin pointerSize types levels).isSome → (types name).isSome
  | _ + 1, name, h => by
    rw [sizeWithin_named] at h
    exact Option.isSome_of_isSome_bind h

/-- What has a size has parts with sizes, with the levels that are left for them. -/
theorem sizeWithin_part (h : a.sizeWithin pointerSize types levels = some v)
    (hb : Part types a k b) : (b.sizeWithin pointerSize types (levels - k)).isSome := by
  cases hb with
  | field hf => exact Size.isSome_of_total h _ hf
  | member hf => exact Size.isSome_of_largest h _ hf
  | target => exact Option.isSome_of_eq_some h
  | element =>
    cases levels with
    | zero => cases h
    | succ levels =>
      obtain ⟨w, hw, -⟩ := Option.bind_eq_some_iff.mp h
      exact Option.isSome_of_eq_some hw
  | unnamedMember hf =>
    cases levels with
    | zero => cases h
    | succ levels => exact Size.isSome_of_largest h _ hf
  | meaning hd =>
    cases levels with
    | zero => cases h
    | succ levels =>
      rw [sizeWithin_named, hd, Option.bind_some] at h
      exact Option.isSome_of_eq_some h

theorem sizeWithin_meets (hb : Meets types a k b)
    (h : (a.sizeWithin pointerSize types levels).isSome) :
    (b.sizeWithin pointerSize types (levels - k)).isSome := by
  induction hb generalizing levels with
  | root => exact h
  | through part _ ih =>
    obtain ⟨v, hv⟩ := Option.isSome_iff_exists.mp h
    rw [← Nat.sub_sub]
    exact ih (sizeWithin_part hv part)

/-- A computed size is exact. -/
theorem exactSize_of_sizeWithin : ∀ levels a v, a.sizeWithin pointerSize types levels = some v →
    ExactSize pointerSize.toNat types a v.toNat := by
  refine @induction_on_levels types _ (fun _ _ h => by cases h) ?_
  intro levels a pos ih v h
  have parts : ∀ {k} {fs : List Field} {exact : Field → Nat},
      (∀ f ∈ fs, Part types a k (.ref f.type)) →
      Size.Agrees (fun f => f.type.sizeWithin pointerSize types (levels - k)) exact fs →
      ∀ f ∈ fs, ExactSize pointerSize.toNat types (.ref f.type) (exact f) := by
    intro k fs exact hfs agrees f hf
    obtain ⟨w, hw, hexact⟩ := agrees f hf
    exact hexact ▸ ih _ _ (hfs f hf) _ hw
  cases a with
  | definition d =>
    -- the number of levels may be zero here, which only an empty list of parts survives
    obtain ⟨name, fields | members | t⟩ := d
    · obtain ⟨exact, agrees⟩ := Size.exists_agrees (Size.isSome_of_total h)
      rw [(Size.total_eq_some_iff agrees).mp h]
      exact .struct (parts (fun f hf => .field hf) agrees)
    · obtain ⟨exact, agrees⟩ := Size.exists_agrees (Size.isSome_of_largest h)
      rw [(Size.largest_eq_some_iff agrees).mp h]
      exact .union (parts (fun f hf => .member hf) agrees)
    · exact .aliasOf (ih _ _ .target _ h)
  | ref t =>
    obtain ⟨levels, rfl⟩ := Nat.exists_eq_add_one.mpr (pos t rfl)
    cases t with
    | u8 => cases h; exact .u8
    | u16 => cases h; exact .u16
    | u32 => cases h; exact .u32
    | u64 => cases h; exact .u64
    | char => cases h; exact .char
    | pointer => cases h; exact .pointer
    | array element count =>
      obtain ⟨w, hw, hv⟩ := Option.bind_eq_some_iff.mp h
      rw [Size.mul_eq_some_iff.mp hv]
      exact .array (ih _ _ .element _ hw)
    | union members =>
      obtain ⟨exact, agrees⟩ := Size.exists_agrees (Size.isSome_of_largest h)
      rw [(Size.largest_eq_some_iff agrees).mp h]
      exact .unnamedUnion (parts (fun f hf => .unnamedMember hf) agrees)
    | named name =>
      rw [sizeWithin_named] at h
      obtain ⟨d, hd, hv⟩ := Option.bind_eq_some_iff.mp h
      exact .named hd (ih _ _ (.meaning hd) _ hv)

/-- Nothing that an expansion meets needs more than 64 bits. -/
def Fits (pointerSize : Nat) (types : TypeTable) (a : TypeNode) : Prop :=
  ∀ k b n, Meets types a k b → ExactSize pointerSize types b n → n < 2 ^ 64

theorem Fits.part {pointerSize : Nat} (h : Fits pointerSize types a) (hb : Part types a k b) :
    Fits pointerSize types b :=
  fun m c n hm => h (k + m) c n (.through hb hm)

/-- An exact size is computed, if levels and bits suffice. -/
theorem sizeWithin_of_exactSize : ∀ levels a n, ExactSize pointerSize.toNat types a n →
    Shallow types levels a → Fits pointerSize.toNat types a →
    ∃ v, a.sizeWithin pointerSize types levels = some v ∧ v.toNat = n := by
  refine @induction_on_levels types _ ?_ ?_
  · intro t n _ shallow
    exact absurd shallow.pos (Nat.lt_irrefl 0)
  intro levels a _ ih n h shallow fits
  have part : ∀ {k b m}, Part types a k b → ExactSize pointerSize.toNat types b m →
      ∃ w, b.sizeWithin pointerSize types (levels - k) = some w ∧ w.toNat = m :=
    fun hb hm => ih _ _ hb _ hm (shallow.part hb) (fits.part hb)
  -- the node is met by its own expansion, so 64 bits hold its exact size
  obtain ⟨v, hv⟩ : ∃ v : UInt64, v.toNat = n :=
    ⟨.ofNat n, UInt64.toNat_ofNat_of_lt' (fits 0 _ _ .root h)⟩
  have value : ∀ {w : UInt64}, w.toNat = n → some w = some v :=
    fun hw => congrArg some (UInt64.toNat_inj.mp (hw.trans hv.symm))
  refine ⟨v, ?_, hv⟩
  cases a with
  | definition d =>
    cases h with
    | struct h => exact (Size.total_eq_some_iff fun f hf => part (.field hf) (h f hf)).mpr hv
    | union h => exact (Size.largest_eq_some_iff fun f hf => part (.member hf) (h f hf)).mpr hv
    | aliasOf h =>
      obtain ⟨w, hw, hexact⟩ := part .target h
      exact hw.trans (value hexact)
  | ref t =>
    obtain ⟨levels, rfl⟩ := Nat.exists_eq_add_one.mpr shallow.pos
    cases h with
    | u8 | u16 | u32 | u64 | char | pointer => exact value rfl
    | array h =>
      obtain ⟨w, hw, hexact⟩ := part .element h
      rw [← hexact] at hv
      exact Option.bind_eq_some_iff.mpr ⟨w, hw, Size.mul_eq_some_iff.mpr hv⟩
    | unnamedUnion h =>
      exact (Size.largest_eq_some_iff fun f hf => part (.unnamedMember hf) (h f hf)).mpr hv
    | named hd h =>
      obtain ⟨w, hw, hexact⟩ := part (.meaning hd) h
      rw [sizeWithin_named, hd, Option.bind_some]
      exact hw.trans (value hexact)

/-- A size is computed just when the expansion stays within the names that are known, within the
levels and within 64 bits. -/
theorem isSome_sizeWithin_iff : (a.sizeWithin pointerSize types levels).isSome ↔
    Resolved types a ∧ Shallow types levels a ∧ Fits pointerSize.toNat types a := by
  constructor
  · intro h
    refine ⟨fun k name hm => isSome_of_isSome_sizeWithin (sizeWithin_meets hm h),
      fun k t hm => ?_, fun k b n hm hn => ?_⟩
    · have := pos_of_isSome_sizeWithin (sizeWithin_meets hm h)
      omega
    · obtain ⟨w, hw⟩ := Option.isSome_iff_exists.mp (sizeWithin_meets hm h)
      rw [hn.unique (exactSize_of_sizeWithin _ _ _ hw)]
      exact w.toNat_lt_size
  · rintro ⟨resolved, shallow, fits⟩
    obtain ⟨n, hn⟩ := exists_exactSize pointerSize.toNat _ _ resolved shallow
    obtain ⟨v, hv, -⟩ := sizeWithin_of_exactSize _ _ _ hn shallow fits
    exact Option.isSome_of_eq_some hv

/-- A type or a definition has a size just when its expansion meets only known names, no type below
level 32, and nothing whose exact size needs more than 64 bits. The size is then the exact one. -/
theorem size_is_exact (pointerSize : UInt64) (types : TypeTable) (a : TypeNode) :
    ((a.size pointerSize types).isSome ↔
      (∀ k name, Meets types a k (.ref (.named name)) → (types name).isSome) ∧
      (∀ k t, Meets types a k (.ref t) → k ≤ 32) ∧
      (∀ k b n, Meets types a k b → ExactSize pointerSize.toNat types b n → n < 2 ^ 64)) ∧
    ∀ v, a.size pointerSize types = some v →
      ∀ n, ExactSize pointerSize.toNat types a n ↔ n = v.toNat := by
  simp only [size_eq_sizeWithin]
  refine ⟨?_, fun v hv n => ?_⟩
  · rw [isSome_sizeWithin_iff]
    simp only [Resolved, Shallow, Fits, TypeRef.maxLevels, Nat.lt_succ_iff]
  · have exact := exactSize_of_sizeWithin _ _ _ hv
    exact ⟨fun h => h.unique exact, fun h => h ▸ exact⟩

theorem size_is_exact_header :
    (definition Builtin.header).size 8 (.ofList Builtin.all) = some 40 ∧
    ∀ n, ExactSize 8 (.ofList Builtin.all) (.definition Builtin.header) n ↔ n = 40 :=
  ⟨by decide, (size_is_exact 8 _ _).2 40 (by decide)⟩

/-- An empty array has no size when its elements would need too much. -/
example : (ref (.array (.array .u64 0x2000000000000000) 0)).size 8 (fun _ => none) = none := by
  decide

end TypeNode
end TeImage
