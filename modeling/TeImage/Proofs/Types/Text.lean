/-
Type definitions and their text. Definitions are read back from the text that is written for them
as long as its brackets nest no deeper than there is room for (`reads_typeRef` and what follows from
it for fields, kinds and definitions), and whatever is read from any text fits into the room that
it was read in (`gives_typeRef`). So everything that was ever read from a file of definitions may be
written and read again (`definitions_survive_text`).

Both directions go by induction on the room, not on the type: a field, a kind or a list of fields
is read by the readers of types with less room, whichever type they are part of.
-/
import Mathlib.Tactic
import TeImage.Proofs.Json.Acceptance
import TeImage.Proofs.Json.Written
import TeImage.Proofs.Types.Directory

namespace TeImage

namespace TypeText

open Json TypeDirectory

/-! ## Room -/

theorem inside_eq_some_iff {room left : Nat} : inside room = some left ↔ room = left + 1 := by
  cases room with
  | zero => simp [inside]
  | succ room => simp [inside]

/-- There are readers inside one more bracket only where there is room for it. -/
theorem exists_of_mem_inside {β : Type} {r : Nat → β} {room : Nat} {inner : β}
    (h : inner ∈ (inside room).map r) : ∃ left, room = left + 1 ∧ r left = inner := by
  obtain ⟨left, some', same⟩ := Option.map_eq_some_iff.1 h
  exact ⟨left, inside_eq_some_iff.1 some', same⟩

/-- The types by name, where `room` further brackets may be opened before the name. -/
def refVariant (room : Nat) (name : String) : Option (Variant TypeRef) :=
  match name with
  | "u8" => some (.bare .u8)
  | "u16" => some (.bare .u16)
  | "u32" => some (.bare .u32)
  | "u64" => some (.bare .u64)
  | "char" => some (.bare .char)
  | "named" => some (.loaded (mapped .named text))
  | "array" => some (.loaded (mapped (fun p => .array p.1 p.2)
      (pair ((inside (room - 1)).map fun left => (typeRef left, count)))))
  | "pointer" => (inside room).map fun left => .loaded (mapped .pointer (typeRef left))
  | "union" => some (.loaded (mapped .union (fields (room - 1))))
  | _ => none

theorem typeRefBy_eq {nested : List (Reader TypeRef)} {room : Nat}
    (one : nested.head? = (inside room).map typeRef)
    (two : (nested.drop 1).head? = (inside (room - 1)).map typeRef)
    (three : (if (nested.drop 1).isEmpty then none else some (fieldBy (nested.drop 2).head?)) =
      (inside (room - 1)).map field)
    (some' : (!nested.isEmpty) = (room != 0)) :
    typeRefBy nested = choice (refVariant room) (room != 0) := by
  have variants : typeVariant nested = refVariant room := by
    funext name
    simp only [typeVariant, refVariant, one, two, three, Option.map_map, fields]
    rfl
  rw [typeRefBy, variants, some']

theorem typeRef_eq (room : Nat) : typeRef room = choice (refVariant room) (room != 0) := by
  funext cs
  match room with
  | 0 => exact congrFun (typeRefBy_eq rfl rfl rfl rfl) cs
  | 1 => exact congrFun (typeRefBy_eq rfl rfl rfl rfl) cs
  | 2 => exact congrFun (typeRefBy_eq rfl rfl rfl rfl) cs
  | room + 3 => exact congrFun (typeRefBy_eq rfl rfl rfl rfl) cs

theorem fieldsToJson_eq (fs : List Field) : fieldsToJson fs = fs.map Field.toJson := by
  induction fs with
  | nil => rfl
  | cons f fs ih => rw [fieldsToJson, ih, List.map_cons]

/-- Definitions as they stand in a file. -/
def toJson (defs : List TypeDef) : Json := .array (defs.map TypeDef.toJson)

/-! ## From definitions to text and back -/

/-- A list is read back where its items are, inside one more bracket. -/
theorem reads_items {α : Type} {r : Nat → Reader α} {json : α → Json} {room : Nat}
    (level : Option Nat) {as : List α} (fits : (array (as.map json)).depth ≤ room)
    (h : ∀ left, room = left + 1 → ∀ (level : Option Nat) (a : α), (json a).depth ≤ left →
      Reads (r left) ((json a).write level) a) :
    Reads (list ((inside room).map r)) ((array (as.map json)).write level) as := by
  obtain ⟨left, rfl, each⟩ := depth_array_le_iff.1 fits
  apply reads_write_array
  rw [List.forall₂_map_left_iff, List.forall₂_same]
  intro a ha
  exact h left rfl _ a (each (json a) (List.mem_map_of_mem ha))

/-- Types are read back wherever there is less room than `room`. -/
def RefsRead (room : Nat) : Prop := ∀ left < room, ∀ (t : TypeRef) (level : Option Nat),
  t.toJson.depth ≤ left → Reads (typeRef left) (t.toJson.write level) t

section

variable {room : Nat} (ih : RefsRead room)

include ih

theorem reads_field (level : Option Nat) {f : Field} (fits : f.toJson.depth ≤ room) :
    Reads (field room) (f.toJson.write level) f := by
  obtain ⟨name, type⟩ := f
  rw [Field.toJson, depth_record] at fits
  obtain ⟨left, rfl⟩ : ∃ left, room = left + 1 := ⟨room - 1, by omega⟩
  have inner := ih left (by omega) type (deeper level) (by omega)
  have record := reads_write_record (show "ty" ≠ "name" by decide) inner name
  rw [Field.toJson]
  exact record.mapped fun p => Field.mk p.1 p.2

theorem reads_fields (level : Option Nat) {fs : List Field}
    (fits : (array (fieldsToJson fs)).depth ≤ room) :
    Reads (fields room) ((array (fieldsToJson fs)).write level) fs := by
  rw [fieldsToJson_eq] at fits ⊢
  refine reads_items level fits fun left below level f fits => ?_
  exact reads_field (fun left' less => ih left' (by omega)) level fits

end

theorem reads_typeRef (room : Nat) : ∀ (t : TypeRef) (level : Option Nat),
    t.toJson.depth ≤ room → Reads (typeRef room) (t.toJson.write level) t := by
  induction room using Nat.strong_induction_on with
  | _ room ih =>
    intro t level fits
    rw [typeRef_eq]
    have open' (least : 0 < room) : (room != 0) = true := by simp; omega
    -- the element of an array stands two brackets further in, the members of a union two as well
    -- and their types three, the target of a pointer one
    cases t with
    | u8 | u16 | u32 | u64 | char =>
      simp only [TypeRef.toJson]
      exact reads_write_bare rfl _
    | named name =>
      simp only [TypeRef.toJson, depth_variant] at fits ⊢
      rw [open' (by omega)]
      exact reads_write_variant rfl ((reads_write_string _ name).mapped _)
    | array element count =>
      simp only [TypeRef.toJson, depth_variant, depth_pair] at fits ⊢
      obtain ⟨left, rfl⟩ : ∃ left, room = left + 2 := ⟨room - 2, by omega⟩
      have inner := ih left (by omega) element (deeper (deeper level)) (by omega)
      exact reads_write_variant rfl ((reads_write_pair inner (reads_write_nat _ count)).mapped _)
    | pointer target =>
      simp only [TypeRef.toJson, depth_variant] at fits ⊢
      obtain ⟨left, rfl⟩ : ∃ left, room = left + 1 := ⟨room - 1, by omega⟩
      exact reads_write_variant rfl ((ih left (by omega) target _ (by omega)).mapped _)
    | union members =>
      simp only [TypeRef.toJson, depth_variant] at fits ⊢
      rw [open' (by omega)]
      have less : RefsRead (room - 1) := fun left below => ih left (by omega)
      have inner : (array (fieldsToJson members)).depth ≤ room - 1 := by omega
      exact reads_write_variant rfl ((reads_fields less _ inner).mapped _)

theorem refsRead (room : Nat) : RefsRead room := fun left _ => reads_typeRef left

theorem reads_kind {room : Nat} (level : Option Nat) {k : TypeKind} (fits : k.toJson.depth ≤ room) :
    Reads (kind room) (k.toJson.write level) k := by
  obtain ⟨left, rfl⟩ : ∃ left, room = left + 1 := by
    refine ⟨room - 1, ?_⟩
    cases k <;> (simp only [TypeKind.toJson, depth_variant] at fits; omega)
  cases k with
  | struct fields =>
    simp only [TypeKind.toJson, depth_variant] at fits ⊢
    exact reads_write_variant rfl ((reads_fields (refsRead left) _ (by omega)).mapped _)
  | union members =>
    simp only [TypeKind.toJson, depth_variant] at fits ⊢
    exact reads_write_variant rfl ((reads_fields (refsRead left) _ (by omega)).mapped _)
  | aliasOf target =>
    simp only [TypeKind.toJson, depth_variant] at fits ⊢
    exact reads_write_variant rfl ((reads_typeRef left target _ (by omega)).mapped _)

theorem reads_typeDef {room : Nat} (level : Option Nat) {d : TypeDef}
    (fits : d.toJson.depth ≤ room) : Reads (typeDef room) (d.toJson.write level) d := by
  rw [TypeDef.toJson, depth_record] at fits
  obtain ⟨left, rfl⟩ : ∃ left, room = left + 1 := ⟨room - 1, by omega⟩
  have inner := reads_kind (deeper level) (show d.kind.toJson.depth ≤ left by omega)
  have record := reads_write_record (show "kind" ≠ "name" by decide) inner d.name
  exact record.mapped fun p => TypeDef.mk p.1 p.2

theorem reads_typeDefs {room : Nat} (level : Option Nat) {defs : List TypeDef}
    (fits : (toJson defs).depth ≤ room) :
    Reads (typeDefs room) ((toJson defs).write level) defs :=
  reads_items level fits fun _ _ level _ => reads_typeDef level

/-! ## What any text gives -/

/-- A list that is given fits where its items fit into one bracket less. -/
theorem gives_items {α : Type} {r : Nat → Reader α} {json : α → Json} {room : Nat}
    (h : ∀ left, room = left + 1 → Gives (r left) fun a => (json a).depth ≤ left) :
    Gives (list ((inside room).map r)) fun as => (array (as.map json)).depth ≤ room := by
  refine gives_list fun inner hinner => ?_
  obtain ⟨left, rfl, rfl⟩ := exists_of_mem_inside hinner
  refine ⟨_, h left rfl, fun as fits => depth_array_le_iff.2 ⟨left, rfl, fun item hitem => ?_⟩⟩
  obtain ⟨a, ha, rfl⟩ := List.mem_map.1 hitem
  exact fits a ha

/-- Where there is less room than `room`, only types are given that fit into it. -/
def RefsFit (room : Nat) : Prop :=
  ∀ left < room, Gives (typeRef left) fun t => t.toJson.depth ≤ left

section

variable {room : Nat} (ih : RefsFit room)

include ih

theorem gives_field : Gives (field room) fun f => f.toJson.depth ≤ room := by
  rw [field, fieldBy]
  refine Gives.mapped (gives_record fun r hr => ?_)
  obtain ⟨left, rfl, rfl⟩ := exists_of_mem_inside hr
  intro cs rest t read name
  rw [Field.toJson, depth_record]
  exact Nat.succ_le_succ (ih left (by omega) read)

theorem gives_fields : Gives (fields room) fun fs => (array (fieldsToJson fs)).depth ≤ room := by
  simp only [fieldsToJson_eq]
  exact gives_items fun left _ => gives_field fun left' less => ih left' (by omega)

end

theorem depth_of_refVariant_bare {room : Nat} {name : String} {t : TypeRef}
    (h : refVariant room name = some (.bare t)) : t.toJson.depth = 0 := by
  unfold refVariant at h
  split at h <;> simp at h <;> subst h <;> rfl

theorem refVariant_loaded {room : Nat} {name : String} {r : Reader TypeRef}
    (h : refVariant room name = some (.loaded r)) :
    name = "named" ∧ r = mapped .named text ∨
      name = "array" ∧ r = mapped (fun p => .array p.1 p.2)
        (pair ((inside (room - 1)).map fun left => (typeRef left, count))) ∨
      name = "pointer" ∧ (∃ left, room = left + 1 ∧ r = mapped .pointer (typeRef left)) ∨
      name = "union" ∧ r = mapped .union (fields (room - 1)) := by
  unfold refVariant at h
  split at h
  case h_6 =>
    cases h
    exact .inl ⟨rfl, rfl⟩
  case h_7 =>
    cases h
    exact .inr (.inl ⟨rfl, rfl⟩)
  case h_8 =>
    cases room with
    | zero => cases h
    | succ left =>
      cases h
      exact .inr (.inr (.inl ⟨rfl, left, rfl, rfl⟩))
  case h_9 =>
    cases h
    exact .inr (.inr (.inr ⟨rfl, rfl⟩))
  all_goals cases h

/-- A variant that is written with a value fits where its value fits into one bracket less. -/
theorem gives_variant {α β : Type} {r : Reader α} {f : α → β} {written : β → Json}
    {value : α → Json} {name : String} {room : Nat} (least : 0 < room)
    (same : ∀ a, written (f a) = .object [(name, value a)])
    (h : Gives r fun a => (value a).depth ≤ room - 1) :
    Gives (mapped f r) fun b => (written b).depth ≤ room := by
  refine Gives.mapped fun _ _ a read => ?_
  have fits : (value a).depth ≤ room - 1 := h read
  show (written (f a)).depth ≤ room
  rw [same, depth_variant]
  omega

theorem gives_typeRef (room : Nat) : Gives (typeRef room) fun t => t.toJson.depth ≤ room := by
  induction room using Nat.strong_induction_on with
  | _ room ih =>
    rw [typeRef_eq]
    refine gives_choice (fun name t known => ?_) fun open' name r known => ?_
    · rw [depth_of_refVariant_bare known]
      exact Nat.zero_le room
    have least : 0 < room := Nat.pos_of_ne_zero (by simpa using open')
    rcases refVariant_loaded known with ⟨-, rfl⟩ | ⟨-, rfl⟩ | ⟨-, left, rfl, rfl⟩ | ⟨-, rfl⟩
    · have flat : Gives text fun name => (Json.string name).depth ≤ room - 1 :=
        fun _ _ _ _ => Nat.zero_le _
      exact gives_variant least (fun _ => rfl) flat
    · have same (p : TypeRef × UInt64) : (TypeRef.array p.1 p.2).toJson =
          object [("array", array [p.1.toJson, nat p.2.toNat])] := rfl
      refine gives_variant least same (gives_pair fun p hp => ?_)
      obtain ⟨left, below, rfl⟩ := exists_of_mem_inside hp
      have anyCount : Gives count fun _ => True := fun _ _ _ _ => trivial
      refine ⟨_, _, ih left (by omega), anyCount, fun element count fits _ => ?_⟩
      show (array [element.toJson, nat count.toNat]).depth ≤ _
      rw [depth_pair]
      omega
    · exact gives_variant least (fun _ => rfl) (ih left (by omega))
    · have less : RefsFit (room - 1) := fun left below => ih left (by omega)
      exact gives_variant least (fun _ => rfl) (gives_fields less)

theorem refsFit (room : Nat) : RefsFit room := fun left _ => gives_typeRef left

theorem gives_kind (room : Nat) : Gives (kind room) fun k => k.toJson.depth ≤ room := by
  refine gives_choice (fun name k known => ?_) fun open' name r known => ?_
  · unfold kindVariant at known
    split at known <;> cases known
  have least : 0 < room := Nat.pos_of_ne_zero (by simpa using open')
  unfold kindVariant at known
  split at known
  · cases known
    exact gives_variant least (fun _ => rfl) (gives_fields (refsFit (room - 1)))
  · cases known
    exact gives_variant least (fun _ => rfl) (gives_fields (refsFit (room - 1)))
  · cases known
    exact gives_variant least (fun _ => rfl) (gives_typeRef (room - 1))
  · cases known

theorem gives_typeDef (room : Nat) : Gives (typeDef room) fun d => d.toJson.depth ≤ room := by
  refine Gives.mapped (gives_record fun r hr => ?_)
  obtain ⟨left, rfl, rfl⟩ := exists_of_mem_inside hr
  intro cs rest k read name
  simp only [TypeDef.toJson, depth_record]
  exact Nat.succ_le_succ (gives_kind left read)

theorem gives_typeDefs (room : Nat) :
    Gives (typeDefs room) fun defs => (toJson defs).depth ≤ room :=
  gives_items fun left _ => gives_typeDef left

/-! ## Whole files -/

theorem depth_of_parseTypeDefs {text : String} {defs : List TypeDef}
    (h : parseTypeDefs text = .ok defs) : (toJson defs).depth ≤ maxNesting := by
  obtain ⟨rest, read, -⟩ := parse_eq_ok_iff.1 h
  exact gives_typeDefs maxNesting read

theorem parseTypeDefs_toJson {defs : List TypeDef} (fits : (toJson defs).depth ≤ maxNesting) :
    parseTypeDefs (toJson defs).compact = .ok defs ∧
      parseTypeDefs (toJson defs).pretty = .ok defs :=
  parse_compact_pretty fun level => reads_typeDefs level fits

/-- Definitions read back from their text, on one line and on many, as long as its brackets nest no
deeper than they may. Definitions that were read from any text, in whatever spelling, nest no deeper
and so read back from their own text, and from a file with this text where they were read from a
file. -/
theorem definitions_survive_text :
    (∀ defs : List TypeDef, (toJson defs).depth ≤ 127 →
      parseTypeDefs (toJson defs).compact = .ok defs ∧
        parseTypeDefs (toJson defs).pretty = .ok defs) ∧
    (∀ (text : String) (defs : List TypeDef), parseTypeDefs text = .ok defs →
      (toJson defs).depth ≤ 127 ∧ parseTypeDefs (toJson defs).compact = .ok defs ∧
        parseTypeDefs (toJson defs).pretty = .ok defs) ∧
    ∀ (content : Except FileFault Bytes) (defs : List TypeDef), definitionsOf content = .ok defs →
      definitionsOf (.ok (Utf8.encode (toJson defs).compact)) = .ok defs ∧
        definitionsOf (.ok (Utf8.encode (toJson defs).pretty)) = .ok defs := by
  refine ⟨fun _ => parseTypeDefs_toJson, fun text defs h => ?_, fun content defs h => ?_⟩
  · exact ⟨depth_of_parseTypeDefs h, parseTypeDefs_toJson (depth_of_parseTypeDefs h)⟩
  · obtain ⟨text, rfl, read⟩ := definitionsOf_eq_ok_iff.1 h
    obtain ⟨compact, pretty⟩ := parseTypeDefs_toJson (depth_of_parseTypeDefs read)
    exact ⟨definitionsOf_eq_ok_iff.2 ⟨_, rfl, compact⟩, definitionsOf_eq_ok_iff.2 ⟨_, rfl, pretty⟩⟩

/-- Names that need escapes, and an array of as many pointers as can be counted. -/
def unusualDefinitions : List TypeDef :=
  [⟨"\"\\\n\x01é", .struct
    [⟨"", .array (.pointer (.union [⟨"😀", .named "\x7b\x7d"⟩])) 0xFFFFFFFFFFFFFFFF⟩]⟩,
   ⟨"T", .aliasOf .char⟩]

theorem definitions_survive_text_unusual :
    ((toJson unusualDefinitions).depth ≤ 127 ∧
      parseTypeDefs (toJson unusualDefinitions).pretty = .ok unusualDefinitions) ∧
    (parseTypeDefs "[ [\"T\", \x7b\"alias\":\x7b\"u8\" : null\x7d\x7d] ]" =
        .ok [⟨"T", .aliasOf .u8⟩] ∧
      parseTypeDefs (toJson [⟨"T", .aliasOf .u8⟩]).pretty = .ok [⟨"T", .aliasOf .u8⟩] ∧
      definitionsOf (.ok (Utf8.encode (toJson [⟨"T", .aliasOf .u8⟩]).compact)) =
        .ok [⟨"T", .aliasOf .u8⟩]) := by
  have fits : (toJson unusualDefinitions).depth ≤ 127 := by decide
  have read := definitions_survive_text.1 unusualDefinitions fits
  have spelled : parseTypeDefs "[ [\"T\", \x7b\"alias\":\x7b\"u8\" : null\x7d\x7d] ]" =
      .ok [⟨"T", .aliasOf .u8⟩] := by cbv
  have again := definitions_survive_text.2.1 _ _ spelled
  have file := definitions_survive_text.2.2 _ _ (definitionsOf_eq_ok_iff.2 ⟨_, rfl, spelled⟩)
  exact ⟨⟨fits, read.2⟩, spelled, again.2.2, file.1⟩

end TypeText

end TeImage
