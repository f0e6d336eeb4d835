/-
The spellings of type definitions. A definition or a field is spelled by an object with its two
members in any order and among unknown ones, or by a list of the two; a type without parts by its
name or by an object whose member is `null`. These are the spellings that are read, and they are
read as what they spell (`permitted_spellings_mean_the_same`).

Both directions go by induction on the room, as everything about the readers of types does: what is
read from a text of a tree is spelled by the tree in any room (`readsOnly_typeRef`), and what a tree
spells is read where there is room for its brackets (`readFrom_typeRef`).
-/
import Mathlib.Tactic
import TeImage.Proofs.Json.Reading
import TeImage.Proofs.Types.Text

namespace TeImage

namespace TypeText

open Json

/-! ## Spellings -/

mutual

/-- The spellings of a type. -/
inductive SpellsRef : Tree → TypeRef → Prop where
  | bare {name : String} {t : TypeRef} (plain : t.toJson = .string name) :
      SpellsRef (.string (some name)) t
  | null {name : String} {t : TypeRef} (plain : t.toJson = .string name) :
      SpellsRef (.object [(some name, .null)]) t
  | named {name : String} :
      SpellsRef (.object [(some "named", .string (some name))]) (.named name)
  | array {j : Tree} {element : TypeRef} {count : UInt64} (spelled : SpellsRef j element) :
      SpellsRef (.object [(some "array", .array [j, .number (Nat.toDigits 10 count.toNat)])])
        (.array element count)
  | pointer {j : Tree} {target : TypeRef} (spelled : SpellsRef j target) :
      SpellsRef (.object [(some "pointer", j)]) (.pointer target)
  | union {items : List Tree} {members : List Field}
      (spelled : List.Forall₂ SpellsField items members) :
      SpellsRef (.object [(some "union", .array items)]) (.union members)

/-- The spellings of a field. -/
inductive SpellsField : Tree → Field → Prop where
  | intro {j : Tree} {name : String} {type : TypeRef}
      (record : Tree.Record "ty" SpellsRef j (name, type)) : SpellsField j ⟨name, type⟩

end

/-- The spellings of a kind. -/
inductive SpellsKind : Tree → TypeKind → Prop where
  | struct {items : List Tree} {fields : List Field}
      (spelled : List.Forall₂ SpellsField items fields) :
      SpellsKind (.object [(some "struct", .array items)]) (.struct fields)
  | union {items : List Tree} {members : List Field}
      (spelled : List.Forall₂ SpellsField items members) :
      SpellsKind (.object [(some "union", .array items)]) (.union members)
  | aliasOf {j : Tree} {target : TypeRef} (spelled : SpellsRef j target) :
      SpellsKind (.object [(some "alias", j)]) (.aliasOf target)

def SpellsDef (j : Tree) (d : TypeDef) : Prop := Tree.Record "kind" SpellsKind j (d.name, d.kind)

def SpellsDefs (j : Tree) (defs : List TypeDef) : Prop := Tree.Items SpellsDef j defs

/-! ## What is read is spelled -/

/-- Where there is less room than `room`, only what is spelled is read as a type. -/
def RefsOnly (room : Nat) : Prop := ∀ left < room, ReadsOnly (typeRef left) SpellsRef

section

variable {room : Nat} (ih : RefsOnly room)

include ih

theorem readsOnly_field : ReadsOnly (field room) SpellsField := by
  rw [field, fieldBy]
  have record : ReadsOnly (Json.record "ty" ((inside room).map typeRef))
      (Tree.Record "ty" SpellsRef) := by
    refine readsOnly_record fun r hr => ?_
    obtain ⟨left, rfl, rfl⟩ := exists_of_mem_inside hr
    exact ih left (by omega)
  refine (record.mapped _).mono ?_
  rintro j f ⟨⟨name, type⟩, spelled, rfl⟩
  exact .intro spelled

theorem readsOnly_fields : ReadsOnly (fields room) (Tree.Items SpellsField) := by
  refine readsOnly_list fun r hr => ?_
  obtain ⟨left, rfl, rfl⟩ := exists_of_mem_inside hr
  exact readsOnly_field fun left' less => ih left' (by omega)

end

theorem toJson_of_refVariant_bare {room : Nat} {name : String} {t : TypeRef}
    (h : refVariant room name = some (.bare t)) : t.toJson = .string name := by
  unfold refVariant at h
  split at h <;> simp at h <;> subst h <;> rfl

theorem readsOnly_typeRef (room : Nat) : ReadsOnly (typeRef room) SpellsRef := by
  induction room using Nat.strong_induction_on with
  | _ room ih =>
    rw [typeRef_eq]
    refine readsOnly_choice (fun name t known => ?_) fun open' name r known => ?_
    · have plain := toJson_of_refVariant_bare known
      exact ⟨.bare plain, .null plain⟩
    have least : 0 < room := Nat.pos_of_ne_zero (by simpa using open')
    rcases refVariant_loaded known with
      ⟨rfl, rfl⟩ | ⟨rfl, rfl⟩ | ⟨rfl, left, rfl, rfl⟩ | ⟨rfl, rfl⟩
    · refine (readsOnly_text.mapped _).mono ?_
      rintro j t ⟨name, rfl, rfl⟩
      exact .named
    · have pairs : ReadsOnly (pair ((inside (room - 1)).map fun left => (typeRef left, count)))
          (Tree.Pair SpellsRef fun j n => j = .number (Nat.toDigits 10 n.toNat)) := by
        refine readsOnly_pair fun p hp => ?_
        obtain ⟨left, below, rfl⟩ := exists_of_mem_inside hp
        exact ⟨ih left (by omega), readsOnly_count⟩
      refine (pairs.mapped _).mono ?_
      rintro j t ⟨⟨element, count⟩, ⟨_, _, rfl, spelled, rfl⟩, rfl⟩
      exact .array spelled
    · refine ((ih left (by omega)).mapped _).mono ?_
      rintro j t ⟨target, spelled, rfl⟩
      exact .pointer spelled
    · have less : RefsOnly (room - 1) := fun left below => ih left (by omega)
      refine ((readsOnly_fields less).mapped _).mono ?_
      rintro j t ⟨members, ⟨items, rfl, spelled⟩, rfl⟩
      exact .union spelled

theorem refsOnly (room : Nat) : RefsOnly room := fun left _ => readsOnly_typeRef left

theorem readsOnly_kind (room : Nat) : ReadsOnly (kind room) SpellsKind := by
  refine readsOnly_choice (fun name k known => ?_) fun _ name r known => ?_
  · unfold kindVariant at known
    split at known <;> cases known
  unfold kindVariant at known
  split at known
  · cases known
    refine ((readsOnly_fields (refsOnly _)).mapped _).mono ?_
    rintro j k ⟨fields, ⟨items, rfl, spelled⟩, rfl⟩
    exact .struct spelled
  · cases known
    refine ((readsOnly_fields (refsOnly _)).mapped _).mono ?_
    rintro j k ⟨fields, ⟨items, rfl, spelled⟩, rfl⟩
    exact .union spelled
  · cases known
    refine ((readsOnly_typeRef _).mapped _).mono ?_
    rintro j k ⟨target, spelled, rfl⟩
    exact .aliasOf spelled
  · cases known

theorem readsOnly_typeDef (room : Nat) : ReadsOnly (typeDef room) SpellsDef := by
  have record : ReadsOnly (Json.record "kind" ((inside room).map kind))
      (Tree.Record "kind" SpellsKind) := by
    refine readsOnly_record fun r hr => ?_
    obtain ⟨left, rfl, rfl⟩ := exists_of_mem_inside hr
    exact readsOnly_kind left
  refine (record.mapped _).mono ?_
  rintro j d ⟨⟨name, kind⟩, spelled, rfl⟩
  exact spelled

theorem readsOnly_typeDefs (room : Nat) : ReadsOnly (typeDefs room) SpellsDefs := by
  refine readsOnly_list fun r hr => ?_
  obtain ⟨left, rfl, rfl⟩ := exists_of_mem_inside hr
  exact readsOnly_typeDef left

/-! ## What is spelled is read -/

/-- Where there is less room than `room`, what is spelled is read if its brackets fit. -/
def RefsFrom (room : Nat) : Prop := ∀ left < room, ∀ (j : Tree) (t : TypeRef), SpellsRef j t →
  j.depth ≤ left → ReadFrom (typeRef left) j t

/-- A list is read where its items are, inside one more bracket. -/
theorem readFrom_items {α : Type} {r : Nat → Reader α} {spells : Tree → α → Prop} {room : Nat}
    {items : List Tree} {as : List α} (spelled : List.Forall₂ spells items as)
    (fits : (Tree.array items).depth ≤ room)
    (h : ∀ left, room = left + 1 → ∀ j a, spells j a → j.depth ≤ left → ReadFrom (r left) j a) :
    ReadFrom (list ((inside room).map r)) (.array items) as := by
  obtain ⟨left, rfl, each⟩ := Tree.depth_array_le_iff.1 fits
  apply readFrom_list
  refine ((List.forall₂_and_left _ _).2 ⟨each, spelled⟩).imp fun j a both => ?_
  exact h left rfl j a both.2 both.1

/-- A record is read where its body is, inside one more bracket. -/
theorem readFrom_inside {α : Type} {r : Nat → Reader α} {spells : Tree → α → Prop} {room : Nat}
    {key : String} (distinct : key ≠ "name") {j : Tree} {p : String × α}
    (spelled : Tree.Record key spells j p) (fits : j.depth ≤ room)
    (h : ∀ left, room = left + 1 → ∀ j a, spells j a → j.depth ≤ left → ReadFrom (r left) j a) :
    ReadFrom (record key ((inside room).map r)) j p := by
  have least : 0 < j.depth := by
    cases spelled <;> exact Nat.succ_pos _
  obtain ⟨left, rfl⟩ : ∃ left, room = left + 1 := ⟨room - 1, by omega⟩
  exact readFrom_record distinct spelled fun part a less inner => h left rfl part a inner (by omega)

section

variable {room : Nat} (ih : RefsFrom room)

include ih

theorem readFrom_field {j : Tree} {f : Field} (spelled : SpellsField j f) (fits : j.depth ≤ room) :
    ReadFrom (field room) j f := by
  cases spelled with
  | intro record =>
    have read := readFrom_inside (show "ty" ≠ "name" by decide) record fits
      fun left below => ih left (by omega)
    exact read.mapped fun p => Field.mk p.1 p.2

theorem readFrom_fields {items : List Tree} {fs : List Field}
    (spelled : List.Forall₂ SpellsField items fs) (fits : (Tree.array items).depth ≤ room) :
    ReadFrom (fields room) (.array items) fs := by
  refine readFrom_items spelled fits fun left below j f inner => ?_
  exact readFrom_field (fun left' less => ih left' (by omega)) inner

end

theorem refVariant_of_toJson {t : TypeRef} {name : String} (h : t.toJson = .string name)
    (room : Nat) : refVariant room name = some (.bare t) := by
  cases t <;> simp [TypeRef.toJson] at h <;> subst h <;> rfl

theorem readFrom_typeRef (room : Nat) : ∀ (j : Tree) (t : TypeRef), SpellsRef j t →
    j.depth ≤ room → ReadFrom (typeRef room) j t := by
  induction room using Nat.strong_induction_on with
  | _ room ih =>
    intro j t spelled fits
    rw [typeRef_eq]
    have open' (least : 0 < room) : (room != 0) = true := by simp; omega
    cases spelled with
    | bare plain => exact readFrom_bare (refVariant_of_toJson plain room) _
    | null plain =>
      rw [Tree.depth_variant] at fits
      rw [open' (by omega)]
      have known := refVariant_of_toJson plain room
      exact readFrom_variant known (readFrom_nullWord.mapped fun _ => t)
    | named =>
      rw [Tree.depth_variant] at fits
      rw [open' (by omega)]
      exact readFrom_variant rfl ((readFrom_text _).mapped _)
    | @array j element count spelled =>
      rw [Tree.depth_variant, Tree.depth_pair] at fits
      obtain ⟨left, rfl⟩ : ∃ left, room = left + 2 := ⟨room - 2, by omega⟩
      have inner := readFrom_pair (ih left (by omega) _ _ spelled (by omega)) (readFrom_count count)
      exact readFrom_variant rfl (inner.mapped fun p => TypeRef.array p.1 p.2)
    | pointer spelled =>
      rw [Tree.depth_variant] at fits
      obtain ⟨left, rfl⟩ : ∃ left, room = left + 1 := ⟨room - 1, by omega⟩
      exact readFrom_variant rfl ((ih left (by omega) _ _ spelled (by omega)).mapped _)
    | union spelled =>
      rw [Tree.depth_variant] at fits
      rw [open' (by omega)]
      have less : RefsFrom (room - 1) := fun left below => ih left (by omega)
      exact readFrom_variant rfl ((readFrom_fields less spelled (by omega)).mapped _)

theorem refsFrom (room : Nat) : RefsFrom room := fun left _ => readFrom_typeRef left

theorem readFrom_kind (room : Nat) (j : Tree) (k : TypeKind) (spelled : SpellsKind j k)
    (fits : j.depth ≤ room) : ReadFrom (kind room) j k := by
  obtain ⟨left, rfl⟩ : ∃ left, room = left + 1 := by
    refine ⟨room - 1, ?_⟩
    cases spelled <;> (rw [Tree.depth_variant] at fits; omega)
  cases spelled with
  | struct spelled =>
    rw [Tree.depth_variant] at fits
    exact readFrom_variant rfl ((readFrom_fields (refsFrom left) spelled (by omega)).mapped _)
  | union spelled =>
    rw [Tree.depth_variant] at fits
    exact readFrom_variant rfl ((readFrom_fields (refsFrom left) spelled (by omega)).mapped _)
  | aliasOf spelled =>
    rw [Tree.depth_variant] at fits
    exact readFrom_variant rfl ((readFrom_typeRef left _ _ spelled (by omega)).mapped _)

theorem readFrom_typeDef (room : Nat) (j : Tree) (d : TypeDef) (spelled : SpellsDef j d)
    (fits : j.depth ≤ room) : ReadFrom (typeDef room) j d := by
  have read := readFrom_inside (show "kind" ≠ "name" by decide) spelled fits
    fun left _ => readFrom_kind left
  exact read.mapped fun p => TypeDef.mk p.1 p.2

theorem readFrom_typeDefs {room : Nat} {j : Tree} {defs : List TypeDef}
    (spelled : SpellsDefs j defs) (fits : j.depth ≤ room) : ReadFrom (typeDefs room) j defs := by
  obtain ⟨items, rfl, spelled⟩ := spelled
  exact readFrom_items spelled fits fun left _ => readFrom_typeDef left

/-! ## What is written is a spelling -/

mutual

theorem spellsRef_ofJson : (t : TypeRef) → SpellsRef (.ofJson t.toJson) t
  | .u8 | .u16 | .u32 | .u64 | .char => .bare rfl
  | .named _ => .named
  | .array element count => by
    have written : Tree.ofJson (TypeRef.array element count).toJson = .object [(some "array",
        .array [.ofJson element.toJson, .number (Nat.toDigits 10 count.toNat)])] := by
      rw [← Tree.ofJson_nat]
      rfl
    rw [written]
    exact .array (spellsRef_ofJson element)
  | .pointer target => .pointer (spellsRef_ofJson target)
  | .union members => .union (spellsFields_ofJson members)

theorem spellsField_ofJson : (f : Field) → SpellsField (.ofJson f.toJson) f
  | ⟨_, type⟩ => .intro (.object (.refl _) nofun (spellsRef_ofJson type))

theorem spellsFields_ofJson : (fs : List Field) →
    List.Forall₂ SpellsField (Tree.ofItems (fieldsToJson fs)) fs
  | [] => .nil
  | f :: fs => .cons (spellsField_ofJson f) (spellsFields_ofJson fs)

end

theorem spellsKind_ofJson (k : TypeKind) : SpellsKind (.ofJson k.toJson) k := by
  cases k with
  | struct fields => exact .struct (spellsFields_ofJson fields)
  | union members => exact .union (spellsFields_ofJson members)
  | aliasOf target => exact .aliasOf (spellsRef_ofJson target)

theorem spellsDefs_ofJson (defs : List TypeDef) : SpellsDefs (.ofJson (toJson defs)) defs := by
  refine ⟨_, rfl, ?_⟩
  rw [Tree.ofItems_eq, List.map_map, List.forall₂_map_left_iff, List.forall₂_same]
  intro d _
  exact .object (.refl _) nofun (spellsKind_ofJson d.kind)

end TypeText

end TeImage
