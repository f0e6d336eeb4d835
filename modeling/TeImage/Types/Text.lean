/-
Type definitions as JSON text.

A definition is written as an object with the members `name` and `kind`, a field as one with `name`
and `ty`. Kinds and types are choices: a type without parts is a string, every other one an object
with one member. Reading accepts more than writing gives: members in any order, unknown members,
records as lists, and a type without parts as an object whose member is `null`. Brackets may nest
at most `maxNesting` deep.
-/
import TeImage.Json.Structure
import TeImage.Types.Basic

namespace TeImage

/-! ## Writing -/

mutual

def TypeRef.toJson : TypeRef → Json
  | .u8 => .string "u8"
  | .u16 => .string "u16"
  | .u32 => .string "u32"
  | .u64 => .string "u64"
  | .char => .string "char"
  | .named name => .object [("named", .string name)]
  | .array element count => .object [("array", .array [element.toJson, .nat count.toNat])]
  | .pointer target => .object [("pointer", target.toJson)]
  | .union members => .object [("union", .array (fieldsToJson members))]

def Field.toJson : Field → Json
  | ⟨name, type⟩ => .object [("name", .string name), ("ty", type.toJson)]

def fieldsToJson : List Field → List Json
  | [] => []
  | f :: fs => f.toJson :: fieldsToJson fs

end

def TypeKind.toJson : TypeKind → Json
  | struct fields => .object [("struct", .array (fieldsToJson fields))]
  | union members => .object [("union", .array (fieldsToJson members))]
  | aliasOf target => .object [("alias", target.toJson)]

def TypeDef.toJson (d : TypeDef) : Json :=
  .object [("name", .string d.name), ("kind", d.kind.toJson)]

/-! ## Reading -/

namespace TypeText

open Json

/-- How many brackets may be open at once. -/
def maxNesting : Nat := 127

/-- What is left of `room` inside one more bracket, if there is room for it. -/
def inside : (room : Nat) → Option Nat
  | 0 => none
  | room + 1 => some room

/-- A field as a record, given how its type is read. -/
def fieldBy (type? : Option (Reader TypeRef)) : Reader Field :=
  mapped (fun p => ⟨p.1, p.2⟩) (record "ty" type?)

/-- The types by name, given how a type is read inside one, two and three further brackets, as far
as there is room for these. -/
def typeVariant (nested : List (Reader TypeRef)) (name : String) : Option (Variant TypeRef) :=
  match name with
  | "u8" => some (.bare .u8)
  | "u16" => some (.bare .u16)
  | "u32" => some (.bare .u32)
  | "u64" => some (.bare .u64)
  | "char" => some (.bare .char)
  | "named" => some (.loaded (mapped .named text))
  | "array" => some (.loaded (mapped (fun p => .array p.1 p.2) (pair
      ((nested.drop 1).head?.map fun element => (element, count)))))
  | "pointer" => nested.head?.map fun target => .loaded (mapped .pointer target)
  | "union" => some (.loaded (mapped .union (list
      (if (nested.drop 1).isEmpty then none else some (fieldBy (nested.drop 2).head?)))))
  | _ => none

/-- A type, given how types are read inside further brackets. -/
def typeRefBy (nested : List (Reader TypeRef)) : Reader TypeRef :=
  choice (typeVariant nested) (!nested.isEmpty)

/-- A type, where `room` further brackets may be opened. -/
def typeRef : (room : Nat) → Reader TypeRef
  | 0, cs => typeRefBy [] cs
  | 1, cs => typeRefBy [typeRef 0] cs
  | 2, cs => typeRefBy [typeRef 1, typeRef 0] cs
  | room + 3, cs => typeRefBy [typeRef (room + 2), typeRef (room + 1), typeRef room] cs

def field (room : Nat) : Reader Field := fieldBy ((inside room).map typeRef)

def fields (room : Nat) : Reader (List Field) := list ((inside room).map field)

/-- The kinds by name, where `room` further brackets may be opened behind the name. -/
def kindVariant (room : Nat) (name : String) : Option (Variant TypeKind) :=
  match name with
  | "struct" => some (.loaded (mapped .struct (fields room)))
  | "union" => some (.loaded (mapped .union (fields room)))
  | "alias" => some (.loaded (mapped .aliasOf (typeRef room)))
  | _ => none

def kind (room : Nat) : Reader TypeKind := choice (kindVariant (room - 1)) (room != 0)

def typeDef (room : Nat) : Reader TypeDef :=
  mapped (fun p => ⟨p.1, p.2⟩) (record "kind" ((inside room).map kind))

def typeDefs (room : Nat) : Reader (List TypeDef) := list ((inside room).map typeDef)

/-- Reads a text that holds one type. -/
def parseTypeRef (s : String) : Except Fault TypeRef := parse (typeRef maxNesting) s

/-- Reads a text that holds one definition. -/
def parseTypeDef (s : String) : Except Fault TypeDef := parse (typeDef maxNesting) s

/-- Reads a text that holds a list of definitions. -/
def parseTypeDefs (s : String) : Except Fault (List TypeDef) := parse (typeDefs maxNesting) s

end TypeText

end TeImage
