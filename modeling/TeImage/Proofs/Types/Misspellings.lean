/-
Texts that are refused because of one object in them. A record with a known member missing or
coming twice, or a choice with anything but one member, is no spelling (`not_spells_of_misformed`),
and a tree with such an object at a place where it counts is none either (`not_spells_of_faulty`),
however deep the object stands and whatever stands around it.
-/
import Mathlib.Tactic
import TeImage.Proofs.Types.Spellings

namespace TeImage

namespace TypeText

open Json

/-! ## Faults -/

/-- What is expected at a place of a text. -/
inductive Place where
  | ref
  | field
  | kind
  | definition
  | definitions

/-- The member of a record beside its name, and what is expected there. -/
def Place.body? : Place → Option (String × Place)
  | field => some ("ty", ref)
  | definition => some ("kind", kind)
  | ref | kind | definitions => none

/-- The tree at a place is an object that may not stand there: one for a record where a known member
is missing or comes again, or one for a choice that does not have one member. -/
inductive Misformed : Place → Tree → Prop where
  | record {place inner : Place} {key known : String} {ms : List (Option String × Tree)}
      (body : place.body? = some (key, inner)) (isKnown : known = "name" ∨ known = key)
      (notOnce : (ms.map Prod.fst).count (some known) ≠ 1) : Misformed place (.object ms)
  | choice {place : Place} {ms : List (Option String × Tree)}
      (expected : place = .ref ∨ place = .kind) (notOnly : ms.length ≠ 1) :
      Misformed place (.object ms)

/-- The parts of a tree at a place, and what is expected of them. -/
inductive Holds : Place → Tree → Place → Tree → Prop where
  | definition {items : List Tree} {item : Tree} (member : item ∈ items) :
      Holds .definitions (.array items) .definition item
  | body {place inner : Place} {key : String} {ms : List (Option String × Tree)} {j : Tree}
      (body : place.body? = some (key, inner)) (member : (some key, j) ∈ ms) :
      Holds place (.object ms) inner j
  | listedBody {place inner : Place} {key : String} {name j : Tree}
      (body : place.body? = some (key, inner)) : Holds place (.array [name, j]) inner j
  | fieldOfKind {name : String} {items : List Tree} {item : Tree}
      (known : name = "struct" ∨ name = "union") (member : item ∈ items) :
      Holds .kind (.object [(some name, .array items)]) .field item
  | aliasOf {j : Tree} : Holds .kind (.object [(some "alias", j)]) .ref j
  | element {j n : Tree} : Holds .ref (.object [(some "array", .array [j, n])]) .ref j
  | target {j : Tree} : Holds .ref (.object [(some "pointer", j)]) .ref j
  | fieldOfUnion {items : List Tree} {item : Tree} (member : item ∈ items) :
      Holds .ref (.object [(some "union", .array items)]) .field item

/-- A misformed object stands at the place or at one further in. Whatever else stands in the tree
does not matter. -/
inductive Faulty : Place → Tree → Prop where
  | here {place : Place} {j : Tree} (misformed : Misformed place j) : Faulty place j
  | inside {place inner : Place} {j part : Tree} (held : Holds place j inner part)
      (faulty : Faulty inner part) : Faulty place j

/-- Whether a tree spells something that may stand at a place. -/
def Spells : Place → Tree → Prop
  | .ref, j => ∃ t, SpellsRef j t
  | .field, j => ∃ f, SpellsField j f
  | .kind, j => ∃ k, SpellsKind j k
  | .definition, j => ∃ d, SpellsDef j d
  | .definitions, j => ∃ defs, SpellsDefs j defs

/-- A record spells a name and something that may stand where its body is expected. -/
theorem Spells.record {place inner : Place} {key : String} {j : Tree}
    (body : place.body? = some (key, inner)) (h : Spells place j) : key ≠ "name" ∧
      ∃ name, Tree.Record key (fun part (_ : Unit) => Spells inner part) j (name, ()) := by
  cases place with
  | ref | kind | definitions => cases body
  | field =>
    cases body
    obtain ⟨_, ⟨record⟩⟩ := h
    exact ⟨by decide, _, record.imp fun _ spelled => ⟨_, spelled⟩⟩
  | definition =>
    cases body
    obtain ⟨d, record⟩ := h
    exact ⟨by decide, _, record.imp fun _ spelled => ⟨_, spelled⟩⟩

theorem not_spells_of_misformed {place : Place} {j : Tree} (h : Misformed place j) :
    ¬ Spells place j := by
  intro spells
  cases h with
  | record body isKnown notOnce =>
    obtain ⟨distinct, name, record⟩ := spells.record body
    exact notOnce (record.count_known distinct isKnown)
  | choice expected notOnly =>
    rcases expected with rfl | rfl
    · obtain ⟨t, spelled⟩ := spells
      cases spelled <;> exact notOnly rfl
    · obtain ⟨k, spelled⟩ := spells
      cases spelled <;> exact notOnly rfl

theorem exists_of_forall₂ {α : Type} {spells : Tree → α → Prop} {items : List Tree} {as : List α}
    (h : List.Forall₂ spells items as) {item : Tree} (member : item ∈ items) :
    ∃ a, spells item a := by
  induction h with
  | nil => cases member
  | cons head _ ih =>
    rcases List.mem_cons.1 member with rfl | behind
    · exact ⟨_, head⟩
    · exact ih behind

/-- What is spelled has no part that is not. -/
theorem Holds.spells {place inner : Place} {j part : Tree} (held : Holds place j inner part)
    (h : Spells place j) : Spells inner part := by
  cases held with
  | definition member =>
    obtain ⟨defs, _, same, spelled⟩ := h
    cases same
    exact exists_of_forall₂ spelled member
  | body body member =>
    obtain ⟨distinct, name, record⟩ := h.record body
    exact record.of_member distinct member
  | listedBody body =>
    obtain ⟨-, name, record⟩ := h.record body
    cases record with
    | list spelled => exact spelled
  | fieldOfKind known member =>
    obtain ⟨k, spelled⟩ := h
    cases spelled with
    | struct spelled => exact exists_of_forall₂ spelled member
    | union spelled => exact exists_of_forall₂ spelled member
    | aliasOf => simp at known
  | aliasOf =>
    obtain ⟨k, spelled⟩ := h
    generalize same : "alias" = name at spelled
    cases spelled with
    | aliasOf spelled => exact ⟨_, spelled⟩
    | struct | union => simp at same
  | element =>
    obtain ⟨t, spelled⟩ := h
    generalize same : "array" = name at spelled
    cases spelled with
    | array spelled => exact ⟨_, spelled⟩
    | pointer | union => simp at same
  | target =>
    obtain ⟨t, spelled⟩ := h
    generalize same : "pointer" = name at spelled
    cases spelled with
    | pointer spelled => exact ⟨_, spelled⟩
    | null plain => cases t <;> simp [TypeRef.toJson, ← same] at plain
    | named | array | union => simp at same
  | fieldOfUnion member =>
    obtain ⟨t, spelled⟩ := h
    generalize same : "union" = name at spelled
    cases spelled with
    | union spelled => exact exists_of_forall₂ spelled member
    | array | pointer => simp at same

theorem not_spells_of_faulty {place : Place} {j : Tree} (h : Faulty place j) :
    ¬ Spells place j := by
  induction h with
  | here misformed => exact not_spells_of_misformed misformed
  | inside held _ ih => exact fun spells => ih (held.spells spells)

/-! ## Whole texts -/

/-- Of the texts of a tree whose brackets nest no deeper than they may, those are read whose tree
spells definitions, and as these definitions; the text that is written for definitions is one of
them. With a known member missing or repeated in any record, or with another number of members than
one in any choice, the whole text is refused. -/
theorem permitted_spellings_mean_the_same :
    (∀ (defs : List TypeDef) (level : Option Nat), SpellsDefs (.ofJson (toJson defs)) defs ∧
      (Tree.ofJson (toJson defs)).Document (String.ofList ((toJson defs).write level)) ∧
      (Tree.ofJson (toJson defs)).depth = (toJson defs).depth) ∧
    (∀ (j : Tree) (text : String) (defs : List TypeDef), j.Document text → SpellsDefs j defs →
      j.depth ≤ 127 → parseTypeDefs text = .ok defs) ∧
    (∀ (j : Tree) (text : String) (defs : List TypeDef), j.Document text →
      parseTypeDefs text = .ok defs → SpellsDefs j defs) ∧
    ∀ (j : Tree) (text : String), j.Document text → Faulty .definitions j →
      ∃ fault, parseTypeDefs text = .error fault := by
  refine ⟨fun defs level => ?_, fun j text defs document spelled fits => ?_,
    fun j text defs document read => ?_, fun j text document faulty => ?_⟩
  · exact ⟨spellsDefs_ofJson defs, Tree.document_write _ level, Tree.depth_ofJson _⟩
  · exact (readFrom_typeDefs spelled fits).parse document
  · exact (readsOnly_typeDefs maxNesting).parse document read
  · cases read : parseTypeDefs text with
    | error fault => exact ⟨fault, rfl⟩
    | ok defs =>
      have spelled := (readsOnly_typeDefs maxNesting).parse document read
      exact absurd ⟨defs, spelled⟩ (not_spells_of_faulty faulty)

/-- An alias with its members in another order, one more member between them, and the type as an
object. -/
def reordered : Json := .array [.object [("kind", .object [("alias", .object [("u8", .null)])]),
  ("note", .array [.nat 1]), ("name", .string "T")]]

/-- The alias once more with its name on both ends. -/
def repeated : Json := .array [.object [("name", .string "T"),
  ("kind", .object [("alias", .string "u8")]), ("name", .string "T")]]

theorem permitted_spellings_mean_the_same_reordered :
    (SpellsDefs (.ofJson reordered) [⟨"T", .aliasOf .u8⟩] ∧
      parseTypeDefs reordered.pretty = .ok [⟨"T", .aliasOf .u8⟩]) ∧
    Faulty .definitions (.ofJson repeated) ∧
      ∃ fault, parseTypeDefs repeated.compact = .error fault := by
  obtain ⟨-, read, -, refused⟩ := permitted_spellings_mean_the_same
  have document := Tree.document_write reordered (some 0)
  have faulty : Faulty .definitions (.ofJson repeated) := by
    refine .inside (.definition List.mem_cons_self) (.here ?_)
    exact .record rfl (.inl rfl) (by decide)
  have order (kind note name : Option String × Tree) :
      [kind, note, name].Perm (name :: kind :: [note]) :=
    show ([kind, note] ++ [name]).Perm (name :: ([kind, note] ++ [])) from List.perm_middle
  have spelled : SpellsDefs (.ofJson reordered) [⟨"T", .aliasOf .u8⟩] := by
    refine ⟨_, rfl, .cons (.object (order _ _ _) ?_ (.aliasOf (.null rfl))) .nil⟩
    intro m hm
    rw [List.mem_singleton.1 hm]
    exact ⟨"note", rfl, by decide, by decide⟩
  have fits : (Tree.ofJson reordered).depth ≤ 127 := by decide
  exact ⟨⟨spelled, read _ _ _ document spelled fits⟩, faulty,
    refused _ _ (Tree.document_write repeated none) faulty⟩

end TypeText

end TeImage
