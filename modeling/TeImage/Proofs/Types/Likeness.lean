/-
When two nodes, each looked up in a table of its own, have the same size. A size is made of the form
of a node and the sizes of its parts, so it is enough that the nodes are of one form and that their
parts correspond, and the parts of these, all the way down. A relation that keeps up this
correspondence is a `Likeness`; related nodes have the same size whatever the levels
(`Likeness.sizeWithin_eq`), and types may be as recursive as they like.
-/
import TeImage.Proofs.Types.Size
import Mathlib.Tactic

namespace TeImage

/-! ## Sums and maxima -/

namespace Size

variable {α β : Type} {size : α → Option UInt64} {size' : β → Option UInt64}

theorem total_congr {l : List α} {l' : List β}
    (h : List.Forall₂ (fun a b => size a = size' b) l l') : total size l = total size' l' := by
  induction h with
  | nil => rfl
  | cons head _ ih => rw [total, total, head, ih]

theorem largest_congr {l : List α} {l' : List β}
    (h : List.Forall₂ (fun a b => size a = size' b) l l') : largest size l = largest size' l' := by
  induction h with
  | nil => rfl
  | cons head _ ih => rw [largest, largest, head, ih]

end Size

theorem bind_eq_of_rel {α β γ : Type} {r : α → β → Prop} {x : Option α} {y : Option β}
    {f : α → Option γ} {g : β → Option γ} (h : Option.Rel r x y)
    (hfg : ∀ a, x = some a → ∀ b, r a b → f a = g b) : x.bind f = y.bind g := by
  cases h with
  | none => rfl
  | some related => exact hfg _ rfl _ related

namespace TypeNode

/-! ## Nodes of one form -/

section

variable (types types' : TypeTable) (R : TypeNode → TypeNode → Prop)

/-- The nodes are of one form, and their parts are related, each with the part in its place. What a
pointer points to is no part. -/
inductive SameForm : TypeNode → TypeNode → Prop
  | u8 : SameForm (.ref .u8) (.ref .u8)
  | u16 : SameForm (.ref .u16) (.ref .u16)
  | u32 : SameForm (.ref .u32) (.ref .u32)
  | u64 : SameForm (.ref .u64) (.ref .u64)
  | char : SameForm (.ref .char) (.ref .char)
  | pointer {target target' : TypeRef} :
      SameForm (.ref (.pointer target)) (.ref (.pointer target'))
  | array {element element' : TypeRef} {count : UInt64} : R (.ref element) (.ref element') →
      SameForm (.ref (.array element count)) (.ref (.array element' count))
  | unnamedUnion {members members' : List Field} :
      List.Forall₂ (fun f g => R (.ref f.type) (.ref g.type)) members members' →
      SameForm (.ref (.union members)) (.ref (.union members'))
  | named {name name' : String} :
      Option.Rel (fun d e => R (.definition d) (.definition e)) (types name) (types' name') →
      SameForm (.ref (.named name)) (.ref (.named name'))
  | struct {name name' : String} {fields fields' : List Field} :
      List.Forall₂ (fun f g => R (.ref f.type) (.ref g.type)) fields fields' →
      SameForm (.definition ⟨name, .struct fields⟩) (.definition ⟨name', .struct fields'⟩)
  | union {name name' : String} {members members' : List Field} :
      List.Forall₂ (fun f g => R (.ref f.type) (.ref g.type)) members members' →
      SameForm (.definition ⟨name, .union members⟩) (.definition ⟨name', .union members'⟩)
  | aliasOf {name name' : String} {t t' : TypeRef} : R (.ref t) (.ref t') →
      SameForm (.definition ⟨name, .aliasOf t⟩) (.definition ⟨name', .aliasOf t'⟩)

/-- Related nodes are of one form. -/
def Likeness : Prop := ∀ a b, R a b → SameForm types types' R a b

end

variable {types types' : TypeTable} {R : TypeNode → TypeNode → Prop} {a b : TypeNode}

/-- A node has the form of itself when its parts are related to themselves, and what its name stands
for in the two tables is. -/
theorem SameForm.refl (parts : ∀ k b, Part types a k b → R b b)
    (meaning : ∀ name, a = .ref (.named name) →
      Option.Rel (fun d e => R (.definition d) (.definition e)) (types name) (types' name)) :
    SameForm types types' R a a := by
  have fields : ∀ {k} {fs : List Field}, (∀ f ∈ fs, Part types a k (.ref f.type)) →
      List.Forall₂ (fun f g => R (.ref f.type) (.ref g.type)) fs fs :=
    fun hfs => List.forall₂_same.mpr fun f hf => parts _ _ (hfs f hf)
  obtain t | ⟨name, kind⟩ := a
  · cases t with
    | u8 => exact .u8
    | u16 => exact .u16
    | u32 => exact .u32
    | u64 => exact .u64
    | char => exact .char
    | pointer => exact .pointer
    | array => exact .array (parts _ _ .element)
    | union => exact .unnamedUnion (fields fun _ hf => .unnamedMember hf)
    | named name => exact .named (meaning name rfl)
  · cases kind with
    | struct => exact .struct (fields fun _ hf => .field hf)
    | union => exact .union (fields fun _ hf => .member hf)
    | aliasOf => exact .aliasOf (parts _ _ .target)

/-! ## Nodes of one size -/

variable {pointerSize : UInt64}

/-- Related fields have the same sizes, if related parts of the node have. -/
theorem sizes_of_related {levels k : Nat} {fs gs : List Field}
    (hfs : ∀ f ∈ fs, Part types a k (.ref f.type))
    (ih : ∀ k b, Part types a k b → ∀ c, R b c →
      b.sizeWithin pointerSize types (levels - k) = c.sizeWithin pointerSize types' (levels - k))
    (h : List.Forall₂ (fun f g => R (.ref f.type) (.ref g.type)) fs gs) :
    List.Forall₂ (fun f g => f.type.sizeWithin pointerSize types (levels - k) =
      g.type.sizeWithin pointerSize types' (levels - k)) fs gs := by
  induction h with
  | nil => exact .nil
  | cons head _ tail =>
    obtain ⟨first, rest⟩ := List.forall_mem_cons.mp hfs
    exact .cons (ih _ _ first _ head) (tail rest)

/-- Related nodes have the same size, however many levels are expanded. -/
theorem Likeness.sizeWithin_eq (like : Likeness types types' R) : ∀ levels a b, R a b →
    a.sizeWithin pointerSize types levels = b.sizeWithin pointerSize types' levels := by
  refine @induction_on_levels types _ ?_ ?_
  · intro t b h
    cases like _ _ h <;> rfl
  intro levels a pos ih b h
  have form := like a b h
  cases a with
  | definition d =>
    cases form with
    | struct fields => exact Size.total_congr (sizes_of_related (fun f hf => .field hf) ih fields)
    | union members =>
      exact Size.largest_congr (sizes_of_related (fun f hf => .member hf) ih members)
    | aliasOf target => exact ih _ _ .target _ target
  | ref t =>
    obtain ⟨levels, rfl⟩ := Nat.exists_eq_add_one.mpr (pos t rfl)
    cases form with
    | u8 | u16 | u32 | u64 | char | pointer => rfl
    | array element => exact congrArg (Option.bind · _) (ih _ _ .element _ element)
    | unnamedUnion members =>
      exact Size.largest_congr (sizes_of_related (fun f hf => .unnamedMember hf) ih members)
    | named meaning =>
      rw [sizeWithin_named, sizeWithin_named]
      exact bind_eq_of_rel meaning fun d hd e related => ih _ _ (.meaning hd) _ related

theorem Likeness.size_eq (like : Likeness types types' R) (h : R a b) :
    a.size pointerSize types = b.size pointerSize types' := by
  rw [size_eq_sizeWithin, size_eq_sizeWithin]
  exact like.sizeWithin_eq _ a b h

end TypeNode

end TeImage
