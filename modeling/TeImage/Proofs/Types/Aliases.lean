/-
Sizes and aliases. The name of an alias may be replaced by what it stands for, anywhere in a type
and as often as one likes (`Unaliased`): what had a size keeps it. Such a replacement only lifts
what stands below it, so it rests on a size that was found with few levels being found unchanged
with more of them (`sizeWithin_mono`). The converse fails, since a name takes levels of its own: a
type may get a size by losing a name.
-/
import TeImage.Image
import TeImage.Proofs.Types.Size
import Mathlib.Tactic

namespace TeImage

/-! ## Sums and maxima of sizes that are kept -/

namespace Size

variable {α β : Type} {size : α → Option UInt64} {size' : β → Option UInt64} {v : UInt64}

/-- What has a size on the left has the same one on the right. -/
def Kept (size : α → Option UInt64) (size' : β → Option UInt64) (a : α) (b : β) : Prop :=
  ∀ v, size a = some v → size' b = some v

theorem total_of_kept {l : List α} {l' : List β} (h : List.Forall₂ (Kept size size') l l')
    (hv : total size l = some v) : total size' l' = some v := by
  induction h generalizing v with
  | nil => exact hv
  | cons head _ ih =>
    simp only [total, Option.bind_eq_bind, Option.bind_eq_some_iff] at hv ⊢
    obtain ⟨first, hfirst, others, hothers, hv⟩ := hv
    exact ⟨first, head _ hfirst, others, ih hothers, hv⟩

theorem largest_of_kept {l : List α} {l' : List β} (h : List.Forall₂ (Kept size size') l l')
    (hv : largest size l = some v) : largest size' l' = some v := by
  induction h generalizing v with
  | nil => exact hv
  | cons head _ ih =>
    simp only [largest, Option.bind_eq_bind, Option.bind_eq_some_iff] at hv ⊢
    obtain ⟨first, hfirst, others, hothers, hv⟩ := hv
    exact ⟨first, head _ hfirst, others, ih hothers, hv⟩

end Size

/-! ## Replacing aliases -/

/-- The second type is the first one with names of aliases replaced by what they stand for, in any
number of places and also in what was put in their place. -/
inductive TypeRef.Unaliased (types : TypeTable) : TypeRef → TypeRef → Prop
  | same (t : TypeRef) : Unaliased types t t
  | target {name : String} {d : TypeDef} {t t' : TypeRef} : types name = some d →
      d.kind = .aliasOf t → Unaliased types t t' → Unaliased types (.named name) t'
  | array {element element' : TypeRef} {count : UInt64} : Unaliased types element element' →
      Unaliased types (.array element count) (.array element' count)
  | pointer {target target' : TypeRef} : Unaliased types target target' →
      Unaliased types (.pointer target) (.pointer target')
  | union {members members' : List Field} : members.map Field.name = members'.map Field.name →
      List.Forall₂ (fun f g => Unaliased types f.type g.type) members members' →
      Unaliased types (.union members) (.union members')

/-- The second definition is the first one with aliases replaced in its types. -/
inductive TypeKind.Unaliased (types : TypeTable) : TypeKind → TypeKind → Prop
  | struct {fields fields' : List Field} : fields.map Field.name = fields'.map Field.name →
      List.Forall₂ (fun f g => f.type.Unaliased types g.type) fields fields' →
      Unaliased types (.struct fields) (.struct fields')
  | union {members members' : List Field} : members.map Field.name = members'.map Field.name →
      List.Forall₂ (fun f g => f.type.Unaliased types g.type) members members' →
      Unaliased types (.union members) (.union members')
  | aliasOf {t t' : TypeRef} : t.Unaliased types t' → Unaliased types (.aliasOf t) (.aliasOf t')

namespace TypeNode

/-- The second node is the first one with aliases replaced in it. -/
inductive Unaliased (types : TypeTable) : TypeNode → TypeNode → Prop
  | ref {t t' : TypeRef} : t.Unaliased types t' → Unaliased types (.ref t) (.ref t')
  | definition {d e : TypeDef} : d.name = e.name → d.kind.Unaliased types e.kind →
      Unaliased types (.definition d) (.definition e)

variable {pointerSize v : UInt64} {types : TypeTable} {a b : TypeNode} {levels levels' : Nat}

theorem Shallow.mono (le : levels ≤ levels') (h : Shallow types levels a) :
    Shallow types levels' a :=
  fun k t hm => Nat.lt_of_lt_of_le (h k t hm) le

/-- A size is found unchanged when more levels may be expanded. -/
theorem sizeWithin_mono (le : levels ≤ levels')
    (h : a.sizeWithin pointerSize types levels = some v) :
    a.sizeWithin pointerSize types levels' = some v := by
  obtain ⟨-, shallow, fits⟩ := isSome_sizeWithin_iff.mp (Option.isSome_of_eq_some h)
  have exact_v := exactSize_of_sizeWithin _ _ _ h
  obtain ⟨w, hw, same⟩ := sizeWithin_of_exactSize _ _ _ exact_v (shallow.mono le) fits
  rw [hw, UInt64.toNat_inj.mp same]

/-- The induction is on the levels. What an alias stands for is two levels below its name, and comes
to stand in the place of the name. -/
theorem sizeWithin_of_unaliased (levels : Nat) : ∀ (t t' : TypeRef) (v : UInt64),
    t.Unaliased types t' → t.sizeWithin pointerSize types levels = some v →
      t'.sizeWithin pointerSize types levels = some v := by
  induction levels using Nat.strong_induction_on with
  | _ levels ih =>
    intro t t' v h hv
    cases levels with
    | zero => cases hv
    | succ levels =>
      cases h with
      | same => exact hv
      | @target name d target _ hd kind rest =>
        have below : (ref (.named name)).sizeWithin pointerSize types (levels + 1) = some v := hv
        rw [sizeWithin_named, hd, Option.bind_some, sizeWithin, kind] at below
        have replaced := ih (levels - 1) (by omega) target t' v rest below
        exact sizeWithin_mono (a := .ref t') (by omega) replaced
      | array element =>
        obtain ⟨w, hw, hv⟩ := Option.bind_eq_some_iff.mp hv
        exact Option.bind_eq_some_iff.mpr ⟨w, ih levels (by omega) _ _ w element hw, hv⟩
      | pointer => exact hv
      | union _ members =>
        exact Size.largest_of_kept
          (members.imp fun _ _ member v => ih levels (by omega) _ _ v member) hv

theorem Unaliased.size_eq (h : a.Unaliased types b) (hv : a.size pointerSize types = some v) :
    b.size pointerSize types = some v := by
  have fields : ∀ {fs gs : List Field},
      List.Forall₂ (fun f g => f.type.Unaliased types g.type) fs gs →
      List.Forall₂ (Size.Kept (fun f => f.type.size pointerSize types)
        (fun g => g.type.size pointerSize types)) fs gs :=
    fun hfs => hfs.imp fun _ _ h v => sizeWithin_of_unaliased _ _ _ v h
  cases h with
  | ref h => exact sizeWithin_of_unaliased _ _ _ v h hv
  | @definition d e _ kind =>
    obtain ⟨name, kind_d⟩ := d
    obtain ⟨name', kind_e⟩ := e
    cases kind with
    | struct _ hfs => exact Size.total_of_kept (fields hfs) hv
    | union _ hfs => exact Size.largest_of_kept (fields hfs) hv
    | aliasOf target => exact sizeWithin_of_unaliased _ _ _ v target hv

/-- A name has no other size than its definition. -/
theorem size_of_named {name : String} (h : (ref (.named name)).size pointerSize types = some v) :
    ∃ d, types name = some d ∧ (definition d).size pointerSize types = some v := by
  rw [size_eq_sizeWithin, TypeRef.maxLevels, sizeWithin_named] at h
  obtain ⟨d, hd, hv⟩ := Option.bind_eq_some_iff.mp h
  refine ⟨d, hd, ?_⟩
  rw [size_eq_sizeWithin]
  exact sizeWithin_mono (by decide) hv

end TypeNode

/-! ## Types without aliases -/

open TypeNode

/-- What has a size keeps it when aliases are replaced by what they stand for, in types and in
definitions; and where a name has a size its definition has it too, in an image as in any table. -/
theorem sizes_survive_without_aliases :
    (∀ (pointerSize v : UInt64) (types : TypeTable) (a b : TypeNode), a.Unaliased types b →
      a.size pointerSize types = some v → b.size pointerSize types = some v) ∧
    (∀ (pointerSize v : UInt64) (types : TypeTable) (name : String),
      (TypeRef.named name).size pointerSize types = some v →
        ∃ d, types name = some d ∧ d.size pointerSize types = some v) ∧
    ∀ (i : Image) (name : String) (v : UInt64),
      (TypeRef.named name).size i.platform.pointerSize i.typeNamed? = some v →
        i.typeSize? name = some v := by
  refine ⟨fun _ _ _ _ _ h => h.size_eq, fun _ _ _ _ => size_of_named, fun i name v h => ?_⟩
  obtain ⟨d, hd, hv⟩ := size_of_named h
  exact Option.bind_eq_some_iff.mpr ⟨d, hd, hv⟩

/-- One alias stands for another one, in the elements of an array and behind a pointer. -/
theorem sizes_survive_without_aliases_nested :
    let byte : TypeDef := ⟨"BYTE", .aliasOf .u8⟩
    let pair : TypeDef := ⟨"PAIR", .aliasOf (.array (.named "BYTE") 2)⟩
    let i : Image := (Image.empty.register (.type byte)).register (.type pair)
    let either (first second : TypeRef) : TypeRef :=
      .array (.union [⟨"First", first⟩, ⟨"Second", .pointer second⟩]) 3
    let t := either (.named "PAIR") (.named "BYTE")
    let t' := either (.array .u8 2) .u8
    (t.Unaliased i.typeNamed? t' ∧ t'.size 4 i.typeNamed? = some 12) ∧
    (∃ d, i.typeNamed? "PAIR" = some d ∧ d.size 4 i.typeNamed? = some 2) ∧
    i.typeSize? "PAIR" = some 2 := by
  intro byte pair i either t t'
  have byte_eq : i.typeNamed? "BYTE" = some byte := by cbv
  have pair_eq : i.typeNamed? "PAIR" = some pair := by cbv
  have bytes : (TypeRef.named "PAIR").Unaliased i.typeNamed? (.array .u8 2) :=
    .target pair_eq rfl (.array (.target byte_eq rfl (.same _)))
  have unaliased : t.Unaliased i.typeNamed? t' :=
    .array (.union rfl (.cons bytes (.cons (.pointer (.target byte_eq rfl (.same _))) .nil)))
  obtain ⟨types, definitions, images⟩ := sizes_survive_without_aliases
  refine ⟨⟨unaliased, ?_⟩, ?_, ?_⟩
  · exact types 4 12 _ (.ref t) (.ref t') (.ref unaliased) (by decide)
  · exact definitions 4 2 _ "PAIR" (by decide)
  · exact images i "PAIR" 2 (by decide)

/-- With the name there is a level too many, without it there is none. -/
example :
    let types : TypeTable := .ofList [⟨"BYTE", .aliasOf .u8⟩]
    let deep (t : TypeRef) : TypeRef := (TypeRef.array · 1)^[32] t
    (deep (.named "BYTE")).size 8 types = none ∧ (deep .u8).size 8 types = some 1 := by
  decide

end TeImage
