/-
Sizes of recursive types. The computation of a size calls itself for every part of a type, and goes
through the table of names, so a type that contains itself could keep it busy for ever. It does not:
told as a recursion that counts how deep it is (`sizeStep`) and stops below a limit, it ends for
every node at every depth (`evaluates_iff`), since each call either goes a level down or from a
definition to a mentioned type (`rank_lt_of_asks`). What it finds for a type with a cycle below it
is that there is no size (`size_eq_none_of_cycle`). A pointer closes no cycle, because what it
points to is never looked at: it may be anything, in the type and in the table
(`Retargeted.size_eq`).
-/
import TeImage.Proofs.Types.Likeness
import TeImage.Proofs.Types.Mentions
import Mathlib.Tactic

namespace TeImage

namespace TypeNode

variable {pointerSize : UInt64} {types types' : TypeTable} {a b : TypeNode}

/-! ## The computation as a recursion -/

/-- One call of the recursion: the size of a node at a depth, when `size` says what the calls for
its parts give. -/
def sizeStep (pointerSize : UInt64) (types : TypeTable) (size : Nat × TypeNode → Option UInt64) :
    Nat × TypeNode → Option UInt64
  | (depth, .ref t) =>
    if 32 < depth then none
    else match t with
      | .u8 | .char => some 1
      | .u16 => some 2
      | .u32 => some 4
      | .u64 => some 8
      | .pointer _ => some pointerSize
      | .array element count => (size (depth + 1, .ref element)).bind (Size.mul · count)
      | .union members => Size.largest (fun f => size (depth + 1, .ref f.type)) members
      | .named name => (types name).bind fun d => size (depth + 1, .definition d)
  | (depth, .definition d) =>
    match d.kind with
    | .struct fields => Size.total (fun f => size (depth, .ref f.type)) fields
    | .union members => Size.largest (fun f => size (depth, .ref f.type)) members
    | .aliasOf t => size (depth + 1, .ref t)

/-- The call for the first node at its depth calls for the second one at its depth. -/
inductive Asks (types : TypeTable) : Nat × TypeNode → Nat × TypeNode → Prop
  | ofRef {depth k : Nat} {t : TypeRef} {b : TypeNode} : depth ≤ 32 → Part types (.ref t) k b →
      Asks types (depth, .ref t) (depth + k, b)
  | ofDefinition {depth k : Nat} {d : TypeDef} {b : TypeNode} : Part types (.definition d) k b →
      Asks types (depth, .definition d) (depth + k, b)

/-- The call for a node ends, with the given result: all calls that it makes end, and its result is
made of theirs. -/
inductive Evaluates (pointerSize : UInt64) (types : TypeTable) :
    Nat × TypeNode → Option UInt64 → Prop
  | step {x : Nat × TypeNode} (size : Nat × TypeNode → Option UInt64) :
      (∀ y, Asks types x y → Evaluates pointerSize types y (size y)) →
      Evaluates pointerSize types x (sizeStep pointerSize types size x)

/-- The levels that are left, where a definition comes before the mentioned types of its level. -/
def rank : Nat × TypeNode → Nat
  | (depth, .ref _) => 2 * (33 - depth)
  | (depth, .definition _) => 2 * (33 - depth) + 1

theorem rank_lt_of_asks {x y : Nat × TypeNode} (h : Asks types x y) : rank y < rank x := by
  cases h with
  | ofRef le part => cases part <;> simp only [rank] <;> omega
  | ofDefinition part => cases part <;> simp only [rank] <;> omega

theorem wellFounded_asks (types : TypeTable) : WellFounded fun y x => Asks types x y :=
  Subrelation.wf (fun {_ _} h => rank_lt_of_asks h) (measure rank).wf

/-- A call looks at nothing but the results of the calls that it makes. -/
theorem sizeStep_congr {size size' : Nat × TypeNode → Option UInt64} {x : Nat × TypeNode}
    (h : ∀ y, Asks types x y → size y = size' y) :
    sizeStep pointerSize types size x = sizeStep pointerSize types size' x := by
  obtain ⟨depth, t | ⟨name, kind⟩⟩ := x
  · by_cases deep : 32 < depth
    · simp only [sizeStep, if_pos deep]
    have parts : ∀ {k b}, Part types (.ref t) k b → size (depth + k, b) = size' (depth + k, b) :=
      fun part => h _ (.ofRef (by omega) part)
    simp only [sizeStep, if_neg deep]
    cases t with
    | u8 | u16 | u32 | u64 | char | pointer => rfl
    | array => exact congrArg (Option.bind · _) (parts .element)
    | union =>
      exact Size.largest_congr (List.forall₂_same.mpr fun f hf => parts (.unnamedMember hf))
    | named => exact Option.bind_congr fun d hd => parts (.meaning hd)
  · have parts : ∀ {k b}, Part types (.definition ⟨name, kind⟩) k b →
        size (depth + k, b) = size' (depth + k, b) := fun part => h _ (.ofDefinition part)
    cases kind with
    | struct => exact Size.total_congr (List.forall₂_same.mpr fun f hf => parts (.field hf))
    | union => exact Size.largest_congr (List.forall₂_same.mpr fun f hf => parts (.member hf))
    | aliasOf => exact parts .target

/-- The size of a node at a depth. -/
def sizeAt (pointerSize : UInt64) (types : TypeTable) (x : Nat × TypeNode) : Option UInt64 :=
  x.2.sizeWithin pointerSize types (33 - x.1)

/-- The computed sizes solve the recursion. -/
theorem sizeStep_sizeAt (x : Nat × TypeNode) :
    sizeStep pointerSize types (sizeAt pointerSize types) x = sizeAt pointerSize types x := by
  obtain ⟨depth, t | ⟨name, kind⟩⟩ := x
  · by_cases deep : 32 < depth
    · have none_left : 33 - depth = 0 := by omega
      simp only [sizeStep, if_pos deep, sizeAt, none_left]
      rfl
    obtain ⟨levels, hlevels⟩ : ∃ levels, 33 - depth = levels + 1 := ⟨32 - depth, by omega⟩
    have below : 33 - (depth + 1) = levels := by omega
    simp only [sizeStep, if_neg deep, sizeAt, hlevels, below]
    cases t with
    | named name => exact (sizeWithin_named name).symm
    | _ => rfl
  · cases kind <;> rfl

/-- Every call ends, with the size of the node at that depth. -/
theorem evaluates_iff {x : Nat × TypeNode} {r : Option UInt64} :
    Evaluates pointerSize types x r ↔ r = sizeAt pointerSize types x := by
  constructor
  · intro h
    induction h with
    | step size _ ih => rw [sizeStep_congr ih, sizeStep_sizeAt]
  · rintro rfl
    induction x using (wellFounded_asks types).induction with
    | _ x ih =>
      rw [← sizeStep_sizeAt]
      exact .step _ ih

/-! ## Cycles -/

/-- A type from which a cycle is reached has no size. -/
theorem size_eq_none_of_cycle {name : String} (reaches : Reaches types a name)
    (cycle : Relation.TransGen (Links types) name name) : a.size pointerSize types = none := by
  obtain ⟨k, hk⟩ := reaches_iff.mp reaches
  obtain ⟨m, deep, hm⟩ := meets_deep_of_cycle cycle TypeRef.maxLevels
  by_contra h
  -- the name would have to have a size where no level is left for it
  have sized := sizeWithin_meets (hk.trans hm)
    (Option.isSome_iff_ne_none.mpr (size_eq_sizeWithin a ▸ h))
  have := pos_of_isSome_sizeWithin sized
  omega

end TypeNode

/-! ## Pointers -/

/-- The second type is the first one with other types in the place of what pointers point to. -/
inductive TypeRef.Retargeted : TypeRef → TypeRef → Prop
  | same (t : TypeRef) : Retargeted t t
  | pointer (target target' : TypeRef) : Retargeted (.pointer target) (.pointer target')
  | array {element element' : TypeRef} {count : UInt64} : Retargeted element element' →
      Retargeted (.array element count) (.array element' count)
  | union {members members' : List Field} : members.map Field.name = members'.map Field.name →
      List.Forall₂ (fun f g => Retargeted f.type g.type) members members' →
      Retargeted (.union members) (.union members')

inductive TypeKind.Retargeted : TypeKind → TypeKind → Prop
  | struct {fields fields' : List Field} : fields.map Field.name = fields'.map Field.name →
      List.Forall₂ (fun f g => f.type.Retargeted g.type) fields fields' →
      Retargeted (.struct fields) (.struct fields')
  | union {members members' : List Field} : members.map Field.name = members'.map Field.name →
      List.Forall₂ (fun f g => f.type.Retargeted g.type) members members' →
      Retargeted (.union members) (.union members')
  | aliasOf {t t' : TypeRef} : t.Retargeted t' → Retargeted (.aliasOf t) (.aliasOf t')

structure TypeDef.Retargeted (d e : TypeDef) : Prop where
  name : d.name = e.name
  kind : d.kind.Retargeted e.kind

/-- The tables define the same names, and each of them alike but for what pointers point to. -/
def TypeTable.Retargeted (types types' : TypeTable) : Prop :=
  ∀ name, Option.Rel TypeDef.Retargeted (types name) (types' name)

theorem TypeKind.Retargeted.refl (kind : TypeKind) : kind.Retargeted kind := by
  cases kind with
  | struct => exact .struct rfl (List.forall₂_same.mpr fun _ _ => .same _)
  | union => exact .union rfl (List.forall₂_same.mpr fun _ _ => .same _)
  | aliasOf => exact .aliasOf (.same _)

namespace TypeNode

inductive Retargeted : TypeNode → TypeNode → Prop
  | ref {t t' : TypeRef} : t.Retargeted t' → Retargeted (.ref t) (.ref t')
  | definition {d e : TypeDef} : d.Retargeted e → Retargeted (.definition d) (.definition e)

variable {pointerSize : UInt64} {types types' : TypeTable} {a b : TypeNode}

theorem Retargeted.refl (a : TypeNode) : Retargeted a a := by
  cases a with
  | ref t => exact .ref (.same t)
  | definition d => exact .definition ⟨rfl, .refl _⟩

/-- What a pointer points to is no part of the pointer. -/
theorem likeness_retargeted (h : types.Retargeted types') : Likeness types types' Retargeted := by
  have fields : ∀ {fs gs : List Field}, List.Forall₂ (fun f g => f.type.Retargeted g.type) fs gs →
      List.Forall₂ (fun f g => Retargeted (.ref f.type) (.ref g.type)) fs gs :=
    fun hfs => hfs.imp fun _ _ => .ref
  intro a b hab
  cases hab with
  | ref ht =>
    cases ht with
    | same t =>
      refine .refl (fun _ b _ => .refl b) fun name _ => ?_
      exact match types name, types' name, h name with
        | _, _, .none => .none
        | _, _, .some meaning => .some (.definition meaning)
    | pointer => exact .pointer
    | array element => exact .array (.ref element)
    | union _ members => exact .unnamedUnion (fields members)
  | @definition d e hd =>
    obtain ⟨name, kind⟩ := d
    obtain ⟨name', kind'⟩ := e
    cases hd.kind with
    | struct _ hfs => exact .struct (fields hfs)
    | union _ hfs => exact .union (fields hfs)
    | aliasOf target => exact .aliasOf (.ref target)

theorem Retargeted.size_eq (h : a.Retargeted b) (htypes : types.Retargeted types') :
    a.size pointerSize types = b.size pointerSize types' :=
  (likeness_retargeted htypes).size_eq h

/-! ## Recursive types -/

/-- The computation of a size ends for every type or definition, with no size where a cycle of
definitions is reached by value; and it is all the same what pointers point to. -/
theorem sizes_of_recursive_types (pointerSize : UInt64) (types : TypeTable) (a : TypeNode) :
    (∀ r, Evaluates pointerSize types (0, a) r ↔ r = a.size pointerSize types) ∧
    (∀ name, Reaches types a name → Relation.TransGen (Links types) name name →
      a.size pointerSize types = none) ∧
    ∀ types' b, types.Retargeted types' → a.Retargeted b →
      b.size pointerSize types' = a.size pointerSize types := by
  refine ⟨fun r => ?_, fun name => size_eq_none_of_cycle, fun types' b htypes h => ?_⟩
  · rw [evaluates_iff, size_eq_sizeWithin]
    rfl
  · exact (h.size_eq htypes).symm

/-- The elements of an empty array close a cycle. The rest of a list stands behind a pointer. -/
theorem sizes_of_recursive_types_list :
    let loop : TypeDef := ⟨"LOOP", .struct [⟨"Next", .array (.named "LOOP") 0⟩]⟩
    let list (rest : String) : TypeDef :=
      ⟨"LIST", .struct [⟨"Value", .u32⟩, ⟨"Rest", .pointer (.named rest)⟩]⟩
    let types (rest : String) : TypeTable := fun name =>
      if name = "LOOP" then some loop else if name = "LIST" then some (list rest) else none
    (definition loop).size 8 (types "LIST") = none ∧
    (definition (list "LIST")).size 8 (types "LIST") = some 12 ∧
    (definition (list "VOID")).size 8 (types "VOID") = some 12 := by
  intro loop list types
  have mentions : loop.kind.Mentions "LOOP" := .field List.mem_cons_self (.element .named)
  have cycle : Relation.TransGen (Links (types "LIST")) "LOOP" "LOOP" :=
    .single ⟨loop, rfl, mentions⟩
  have retargeted : (list "LIST").Retargeted (list "VOID") :=
    ⟨rfl, .struct rfl (.cons (.same _) (.cons (.pointer _ _) .nil))⟩
  have tables : (types "LIST").Retargeted (types "VOID") := by
    intro name
    by_cases hloop : name = "LOOP"
    · subst hloop
      exact .some ⟨rfl, .refl _⟩
    by_cases hlist : name = "LIST"
    · subst hlist
      exact .some retargeted
    · simp only [types, if_neg hloop, if_neg hlist]
      exact .none
  have sized : (definition (list "LIST")).size 8 (types "LIST") = some 12 := rfl
  obtain ⟨-, cyclic, -⟩ := sizes_of_recursive_types 8 (types "LIST") (.definition loop)
  obtain ⟨-, -, pointers⟩ := sizes_of_recursive_types 8 (types "LIST") (.definition (list "LIST"))
  exact ⟨cyclic "LOOP" ⟨"LOOP", mentions, .refl⟩ cycle, sized,
    (pointers _ _ tables (.definition retargeted)).trans sized⟩

end TypeNode

end TeImage
