/-
Sizes and the width of pointers. Which names an expansion meets and how deep it goes does not depend
on that width, and exact sizes grow with it (`ExactSize.mono`). So narrower pointers never take a
size away, and never make it larger (`sizes_grow_with_pointers`).
-/
import TeImage.Image
import TeImage.Proofs.Types.Size
import Mathlib.Tactic

namespace TeImage

theorem foldr_max_le_foldr_max {α : Type} {f g : α → Nat} {l : List α} (h : ∀ a ∈ l, f a ≤ g a) :
    (l.map f).foldr max 0 ≤ (l.map g).foldr max 0 := by
  induction l with
  | nil => exact Nat.le_refl 0
  | cons a l ih =>
    obtain ⟨first, rest⟩ := List.forall_mem_cons.mp h
    exact max_le_max first (ih rest)

namespace TypeNode

variable {types : TypeTable} {a : TypeNode}

/-- The exact size grows with the pointers. -/
theorem ExactSize.mono {p q n m : Nat} (le : p ≤ q) (h : ExactSize p types a n)
    (h' : ExactSize q types a m) : n ≤ m := by
  induction h generalizing m with
  | u8 | u16 | u32 | u64 | char => cases h'; exact Nat.le_refl _
  | pointer => cases h'; exact le
  | array _ ih =>
    cases h' with
    | array h' => exact Nat.mul_le_mul_right _ (ih h')
  | unnamedUnion _ ih =>
    cases h' with
    | unnamedUnion h' => exact foldr_max_le_foldr_max fun f hf => ih f hf (h' f hf)
  | named hd _ ih =>
    cases h' with
    | named hd' h' =>
      obtain rfl := Option.some.inj (hd.symm.trans hd')
      exact ih h'
  | struct _ ih =>
    cases h' with
    | struct h' => exact List.sum_le_sum fun f hf => ih f hf (h' f hf)
  | union _ ih =>
    cases h' with
    | union h' => exact foldr_max_le_foldr_max fun f hf => ih f hf (h' f hf)
  | aliasOf _ ih =>
    cases h' with
    | aliasOf h' => exact ih h'

/-- What fits with wide pointers fits with narrow ones. -/
theorem Fits.mono {p q levels : Nat} (le : p ≤ q) (resolved : Resolved types a)
    (shallow : Shallow types levels a) (h : Fits q types a) : Fits p types a := by
  intro k b n met exact_p
  obtain ⟨m, exact_q⟩ := exists_exactSize q _ _ (resolved.meets met) (shallow.meets met)
  exact Nat.lt_of_le_of_lt (exact_p.mono le exact_q) (h k b m met exact_q)

/-- What has a size with wide pointers has one with narrow pointers, and no larger one. -/
theorem size_mono {p q w : UInt64} (le : p ≤ q) (h : a.size q types = some w) :
    ∃ v, a.size p types = some v ∧ v ≤ w := by
  rw [size_eq_sizeWithin] at h
  have lePointers := UInt64.le_iff_toNat_le.mp le
  obtain ⟨resolved, shallow, fits⟩ := isSome_sizeWithin_iff.mp (Option.isSome_of_eq_some h)
  obtain ⟨v, hv⟩ := Option.isSome_iff_exists.mp <|
    isSome_sizeWithin_iff.mpr ⟨resolved, shallow, fits.mono lePointers resolved shallow⟩
  refine ⟨v, (size_eq_sizeWithin a).trans hv, UInt64.le_iff_toNat_le.mpr ?_⟩
  exact (exactSize_of_sizeWithin _ _ _ hv).mono lePointers (exactSize_of_sizeWithin _ _ _ h)

end TypeNode

/-! ## Platforms -/

theorem Platform.pointerSize_x86_le (p : Platform) : Platform.x86.pointerSize ≤ p.pointerSize := by
  cases p <;> decide

/-- With wider pointers a type is at least as large as with narrower ones, where it has a size at
all. So an image that turns out to be for the platform with the narrowest pointers keeps a size for
each of its types that had one, and no size grows. -/
theorem sizes_grow_with_pointers :
    (∀ (types : TypeTable) (a : TypeNode) (p q w : UInt64), p ≤ q → a.size q types = some w →
      ∃ v, a.size p types = some v ∧ v ≤ w) ∧
    ∀ (i : Image) (name : String) (w : UInt64), i.typeSize? name = some w →
      ∃ v, (i.register (.platform .x86)).typeSize? name = some v ∧ v ≤ w := by
  refine ⟨fun types a p q w => TypeNode.size_mono, fun i name w h => ?_⟩
  obtain ⟨d, hd, hw⟩ := Option.bind_eq_some_iff.mp h
  obtain ⟨v, hv, le⟩ := TypeNode.size_mono (a := .definition d) i.platform.pointerSize_x86_le hw
  exact ⟨v, Option.bind_eq_some_iff.mpr ⟨d, hd, hv⟩, le⟩

/-- One pointer more would be too much for 64 bits. -/
theorem sizes_grow_with_pointers_many :
    let d : TypeDef := ⟨"HANDLES", .aliasOf (.array (.pointer .u8) 0x1FFFFFFFFFFFFFFF)⟩
    let i : Image := Image.empty.register (.type d)
    (∃ v, (TypeNode.definition d).size 4 (fun _ => none) = some v ∧ v ≤ 0xFFFFFFFFFFFFFFF8) ∧
    ∃ v, (i.register (.platform .x86)).typeSize? "HANDLES" = some v ∧ v ≤ 0xFFFFFFFFFFFFFFF8 := by
  intro d i
  have wide : (TypeNode.definition d).size 8 (fun _ => none) = some 0xFFFFFFFFFFFFFFF8 := by decide
  have registered : i.typeSize? "HANDLES" = some 0xFFFFFFFFFFFFFFF8 := by decide
  obtain ⟨types, images⟩ := sizes_grow_with_pointers
  exact ⟨types _ _ 4 8 _ (by decide) wide, images i _ _ registered⟩

end TeImage
