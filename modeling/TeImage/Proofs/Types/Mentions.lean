/-
Which names a type reaches by value. A type mentions a name where it stands in one of its fields,
in its elements, in a union or as the target of an alias, but not behind a pointer; a name is linked
to the names that its definition mentions. Nothing here says how a type is expanded or sized. The
names that are reached along the links are just those that the expansion of the type meets
(`reaches_iff`), each of them again and again where the links go around (`meets_deep_of_cycle`).
-/
import TeImage.Proofs.Types.Expansion
import Mathlib.Tactic

namespace TeImage

/-! ## Mentions and links -/

/-- The type mentions the name outside its pointers. -/
inductive TypeRef.Mentions : TypeRef → String → Prop
  | named {name : String} : Mentions (.named name) name
  | element {element : TypeRef} {count : UInt64} {name : String} : Mentions element name →
      Mentions (.array element count) name
  | member {members : List Field} {f : Field} {name : String} : f ∈ members →
      Mentions f.type name → Mentions (.union members) name

/-- The definition mentions the name outside its pointers. -/
inductive TypeKind.Mentions : TypeKind → String → Prop
  | field {fields : List Field} {f : Field} {name : String} : f ∈ fields → f.type.Mentions name →
      Mentions (.struct fields) name
  | member {members : List Field} {f : Field} {name : String} : f ∈ members →
      f.type.Mentions name → Mentions (.union members) name
  | target {t : TypeRef} {name : String} : t.Mentions name → Mentions (.aliasOf t) name

namespace TypeNode

def Mentions : TypeNode → String → Prop
  | ref t => t.Mentions
  | definition d => d.kind.Mentions

/-- The first name is defined, and its definition mentions the second one. -/
def Links (types : TypeTable) (source target : String) : Prop :=
  ∃ d, types source = some d ∧ d.kind.Mentions target

/-- The node mentions the name, or one from which links lead to it. -/
def Reaches (types : TypeTable) (a : TypeNode) (name : String) : Prop :=
  ∃ first, a.Mentions first ∧ Relation.ReflTransGen (Links types) first name

variable {types : TypeTable} {a b c : TypeNode} {k m : Nat} {name name' : String}

theorem reaches_named (types : TypeTable) (name : String) :
    Reaches types (.ref (.named name)) name :=
  ⟨name, .named, .refl⟩

/-- A part reaches nothing that the whole does not reach. -/
theorem Reaches.of_part (part : Part types a k b) (h : Reaches types b name) :
    Reaches types a name := by
  obtain ⟨first, mentions, links⟩ := h
  cases part with
  | element => exact ⟨first, .element mentions, links⟩
  | unnamedMember hf => exact ⟨first, .member hf mentions, links⟩
  | field hf => exact ⟨first, .field hf mentions, links⟩
  | member hf => exact ⟨first, .member hf mentions, links⟩
  | target => exact ⟨first, .target mentions, links⟩
  | meaning hd => exact ⟨_, .named, .head ⟨_, hd, mentions⟩ links⟩

/-! ## What is reached is met -/

theorem meets_of_mentions_ref {t : TypeRef} (h : t.Mentions name) :
    ∃ k, Meets types (.ref t) k (.ref (.named name)) := by
  induction h with
  | named => exact ⟨0, .root⟩
  | element _ ih =>
    obtain ⟨k, hk⟩ := ih
    exact ⟨1 + k, .through .element hk⟩
  | member hf _ ih =>
    obtain ⟨k, hk⟩ := ih
    exact ⟨1 + k, .through (.unnamedMember hf) hk⟩

theorem meets_of_mentions (h : a.Mentions name) : ∃ k, Meets types a k (.ref (.named name)) := by
  match a, h with
  | .ref _, h => exact meets_of_mentions_ref h
  | .definition ⟨_, _⟩, .field hf h =>
    obtain ⟨k, hk⟩ := meets_of_mentions_ref h
    exact ⟨0 + k, .through (.field hf) hk⟩
  | .definition ⟨_, _⟩, .member hf h =>
    obtain ⟨k, hk⟩ := meets_of_mentions_ref h
    exact ⟨0 + k, .through (.member hf) hk⟩
  | .definition ⟨_, _⟩, .target h =>
    obtain ⟨k, hk⟩ := meets_of_mentions_ref h
    exact ⟨1 + k, .through .target hk⟩

/-- A link leads down at least one level, from the name to its definition. -/
theorem Links.meets (h : Links types name name') :
    ∃ k, 0 < k ∧ Meets types (.ref (.named name)) k (.ref (.named name')) := by
  obtain ⟨d, hd, mentions⟩ := h
  obtain ⟨k, hk⟩ := meets_of_mentions (a := .definition d) mentions
  exact ⟨1 + k, by omega, .through (.meaning hd) hk⟩

/-- The names that are reached are the names that the expansion meets. -/
theorem reaches_iff : Reaches types a name ↔ ∃ k, Meets types a k (.ref (.named name)) := by
  constructor
  · rintro ⟨first, mentions, links⟩
    induction links with
    | refl => exact meets_of_mentions mentions
    | tail _ link ih =>
      obtain ⟨k, hk⟩ := ih
      obtain ⟨m, -, hm⟩ := link.meets
      exact ⟨k + m, hk.trans hm⟩
  · rintro ⟨k, h⟩
    generalize hb : TypeNode.ref (.named name) = b at h
    induction h with
    | root => exact hb ▸ reaches_named types name
    | through part _ ih => exact .of_part part (ih hb)

/-! ## Cycles -/

theorem meets_of_transGen (h : Relation.TransGen (Links types) name name') :
    ∃ k, 0 < k ∧ Meets types (.ref (.named name)) k (.ref (.named name')) := by
  induction h with
  | single link => exact link.meets
  | tail _ link ih =>
    obtain ⟨k, pos, hk⟩ := ih
    obtain ⟨m, -, hm⟩ := link.meets
    exact ⟨k + m, by omega, hk.trans hm⟩

/-- A name on a cycle is met at any depth. -/
theorem meets_deep_of_cycle (h : Relation.TransGen (Links types) name name) (depth : Nat) :
    ∃ k, depth ≤ k ∧ Meets types (.ref (.named name)) k (.ref (.named name)) := by
  obtain ⟨k, pos, around⟩ := meets_of_transGen h
  induction depth with
  | zero => exact ⟨0, Nat.le_refl 0, .root⟩
  | succ depth ih =>
    obtain ⟨m, le, hm⟩ := ih
    exact ⟨k + m, by omega, around.trans hm⟩

end TypeNode

end TeImage
