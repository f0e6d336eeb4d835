/-
What a type stands for in bytes, told without its sizes being computed: which types and definitions
the expansion of a type meets, at which level each of them, and which size each of them has when
sizes are natural numbers. An expansion may be infinite, as that of a type that contains itself is;
such a type has no exact size, and every other one whose names are known has exactly one.
-/
import TeImage.Types.Size
import Mathlib.Tactic

namespace TeImage

/-- What an expansion meets: a type where it is mentioned, or the definition of a name. -/
inductive TypeNode where
  | ref (t : TypeRef)
  | definition (d : TypeDef)

namespace TypeNode

/-! ## Expansion -/

/-- The second node is a part of the first one, the given number of levels below it. -/
inductive Part (types : TypeTable) : TypeNode → Nat → TypeNode → Prop
  | element {element : TypeRef} {count : UInt64} :
      Part types (.ref (.array element count)) 1 (.ref element)
  | unnamedMember {members : List Field} {f : Field} : f ∈ members →
      Part types (.ref (.union members)) 1 (.ref f.type)
  | meaning {name : String} {d : TypeDef} : types name = some d →
      Part types (.ref (.named name)) 1 (.definition d)
  | field {name : String} {fields : List Field} {f : Field} : f ∈ fields →
      Part types (.definition ⟨name, .struct fields⟩) 0 (.ref f.type)
  | member {name : String} {members : List Field} {f : Field} : f ∈ members →
      Part types (.definition ⟨name, .union members⟩) 0 (.ref f.type)
  | target {name : String} {t : TypeRef} :
      Part types (.definition ⟨name, .aliasOf t⟩) 1 (.ref t)

/-- The expansion of the first node meets the second one at the given level. -/
inductive Meets (types : TypeTable) : TypeNode → Nat → TypeNode → Prop
  | root {a : TypeNode} : Meets types a 0 a
  | through {a b c : TypeNode} {k m : Nat} : Part types a k b → Meets types b m c →
      Meets types a (k + m) c

variable {types : TypeTable} {a b c : TypeNode} {k m levels : Nat}

theorem Meets.trans (h : Meets types a k b) (h' : Meets types b m c) : Meets types a (k + m) c := by
  induction h with
  | root => rwa [Nat.zero_add]
  | through part _ ih => rw [Nat.add_assoc]; exact .through part (ih h')

/-- What is below a mentioned type is below it by a level. A definition may stand on the level of
its parts, but these are mentioned types again, so a number of levels that runs out ends every
descent. -/
theorem induction_on_levels {P : Nat → TypeNode → Prop} (none_left : ∀ t, P 0 (.ref t))
    (step : ∀ levels a, (∀ t, a = .ref t → 0 < levels) →
      (∀ k b, Part types a k b → P (levels - k) b) → P levels a) :
    ∀ levels a, P levels a := by
  have definitions : ∀ levels, (∀ m ≤ levels, ∀ t, P m (.ref t)) →
      ∀ d, P levels (.definition d) := by
    intro levels refs d
    refine step levels _ (by simp) fun k b hb => ?_
    cases hb <;> exact refs _ (by omega) _
  have refs : ∀ levels t, P levels (.ref t) := by
    intro levels
    induction levels using Nat.strong_induction_on with
    | _ levels ih =>
      intro t
      rcases Nat.eq_zero_or_pos levels with rfl | pos
      · exact none_left t
      refine step levels _ (fun _ _ => pos) fun k b hb => ?_
      cases hb with
      | element | unnamedMember => exact ih _ (by omega) _
      | meaning => exact definitions _ (fun m hm => ih m (by omega)) _
  -- a definition has parts on its own level, but these are mentioned types
  rintro levels (t | d)
  · exact refs levels t
  · exact definitions levels (fun m _ => refs m) d

/-! ## Exact sizes -/

/-- The size of a node in natural numbers. -/
inductive ExactSize (pointerSize : Nat) (types : TypeTable) : TypeNode → Nat → Prop
  | u8 : ExactSize pointerSize types (.ref .u8) 1
  | u16 : ExactSize pointerSize types (.ref .u16) 2
  | u32 : ExactSize pointerSize types (.ref .u32) 4
  | u64 : ExactSize pointerSize types (.ref .u64) 8
  | char : ExactSize pointerSize types (.ref .char) 1
  | pointer {target : TypeRef} : ExactSize pointerSize types (.ref (.pointer target)) pointerSize
  | array {element : TypeRef} {count : UInt64} {n : Nat} :
      ExactSize pointerSize types (.ref element) n →
      ExactSize pointerSize types (.ref (.array element count)) (n * count.toNat)
  | unnamedUnion {members : List Field} {sizes : Field → Nat} :
      (∀ f ∈ members, ExactSize pointerSize types (.ref f.type) (sizes f)) →
      ExactSize pointerSize types (.ref (.union members)) ((members.map sizes).foldr max 0)
  | named {name : String} {d : TypeDef} {n : Nat} : types name = some d →
      ExactSize pointerSize types (.definition d) n →
      ExactSize pointerSize types (.ref (.named name)) n
  | struct {name : String} {fields : List Field} {sizes : Field → Nat} :
      (∀ f ∈ fields, ExactSize pointerSize types (.ref f.type) (sizes f)) →
      ExactSize pointerSize types (.definition ⟨name, .struct fields⟩) (fields.map sizes).sum
  | union {name : String} {members : List Field} {sizes : Field → Nat} :
      (∀ f ∈ members, ExactSize pointerSize types (.ref f.type) (sizes f)) →
      ExactSize pointerSize types (.definition ⟨name, .union members⟩)
        ((members.map sizes).foldr max 0)
  | aliasOf {name : String} {t : TypeRef} {n : Nat} : ExactSize pointerSize types (.ref t) n →
      ExactSize pointerSize types (.definition ⟨name, .aliasOf t⟩) n

variable {pointerSize n n' : Nat}

theorem ExactSize.unique (h : ExactSize pointerSize types a n)
    (h' : ExactSize pointerSize types a n') : n = n' := by
  induction h generalizing n' with
  | u8 | u16 | u32 | u64 | char | pointer => cases h'; rfl
  | array _ ih =>
    cases h' with
    | array h' => rw [ih h']
  | unnamedUnion _ ih =>
    cases h' with
    | unnamedUnion h' => rw [List.map_congr_left fun f hf => ih f hf (h' f hf)]
  | named hd _ ih =>
    cases h' with
    | named hd' h' =>
      obtain rfl := Option.some.inj (hd.symm.trans hd')
      exact ih h'
  | struct _ ih =>
    cases h' with
    | struct h' => rw [List.map_congr_left fun f hf => ih f hf (h' f hf)]
  | union _ ih =>
    cases h' with
    | union h' => rw [List.map_congr_left fun f hf => ih f hf (h' f hf)]
  | aliasOf _ ih =>
    cases h' with
    | aliasOf h' => exact ih h'

/-- Every name that an expansion meets is known. -/
def Resolved (types : TypeTable) (a : TypeNode) : Prop :=
  ∀ k name, Meets types a k (.ref (.named name)) → (types name).isSome

/-- Every type that an expansion meets is mentioned at one of the first levels. -/
def Shallow (types : TypeTable) (levels : Nat) (a : TypeNode) : Prop :=
  ∀ k t, Meets types a k (.ref t) → k < levels

theorem Resolved.part (h : Resolved types a) (hb : Part types a k b) : Resolved types b :=
  fun m name hm => h (k + m) name (.through hb hm)

theorem Shallow.part (h : Shallow types levels a) (hb : Part types a k b) :
    Shallow types (levels - k) b := by
  intro m t hm
  have := h (k + m) t (.through hb hm)
  omega

theorem Resolved.meets (h : Resolved types a) (hb : Meets types a k b) : Resolved types b :=
  fun m name hm => h (k + m) name (hb.trans hm)

theorem Shallow.meets (h : Shallow types levels a) (hb : Meets types a k b) :
    Shallow types (levels - k) b := by
  intro m t hm
  have := h (k + m) t (hb.trans hm)
  omega

theorem Shallow.pos {t : TypeRef} (h : Shallow types levels (.ref t)) : 0 < levels := h 0 t .root

theorem exists_exactSize (pointerSize : Nat) : ∀ levels a,
    Resolved types a → Shallow types levels a → ∃ n, ExactSize pointerSize types a n := by
  refine @induction_on_levels types _ ?_ ?_
  · intro t _ shallow
    exact absurd shallow.pos (Nat.lt_irrefl 0)
  intro levels a _ ih resolved shallow
  have part : ∀ {k b}, Part types a k b → ∃ n, ExactSize pointerSize types b n :=
    fun hb => ih _ _ hb (resolved.part hb) (shallow.part hb)
  have parts : ∀ {k} {fs : List Field}, (∀ f ∈ fs, Part types a k (.ref f.type)) →
      ∃ sizes : Field → Nat, ∀ f ∈ fs, ExactSize pointerSize types (.ref f.type) (sizes f) := by
    intro k fs hfs
    choose! sizes hsizes using fun f hf => part (hfs f hf)
    exact ⟨sizes, hsizes⟩
  match a with
  | .ref .u8 => exact ⟨_, .u8⟩
  | .ref .u16 => exact ⟨_, .u16⟩
  | .ref .u32 => exact ⟨_, .u32⟩
  | .ref .u64 => exact ⟨_, .u64⟩
  | .ref .char => exact ⟨_, .char⟩
  | .ref (.pointer _) => exact ⟨_, .pointer⟩
  | .ref (.array element count) =>
    obtain ⟨n, hn⟩ := part .element
    exact ⟨_, .array hn⟩
  | .ref (.union members) =>
    obtain ⟨sizes, hsizes⟩ := parts fun f hf => .unnamedMember hf
    exact ⟨_, .unnamedUnion hsizes⟩
  | .ref (.named name) =>
    obtain ⟨d, hd⟩ := Option.isSome_iff_exists.mp (resolved 0 name .root)
    obtain ⟨n, hn⟩ := part (.meaning hd)
    exact ⟨n, .named hd hn⟩
  | .definition ⟨_, .struct fields⟩ =>
    obtain ⟨sizes, hsizes⟩ := parts fun f hf => .field hf
    exact ⟨_, .struct hsizes⟩
  | .definition ⟨_, .union members⟩ =>
    obtain ⟨sizes, hsizes⟩ := parts fun f hf => .member hf
    exact ⟨_, .union hsizes⟩
  | .definition ⟨_, .aliasOf t⟩ =>
    obtain ⟨n, hn⟩ := part .target
    exact ⟨n, .aliasOf hn⟩

end TypeNode

end TeImage
