/-
Type definitions: packed structures, unions and aliases over little-endian integers, characters,
arrays, pointers and other named types.
-/

namespace TeImage

mutual

/-- The type of a field, or the target of an alias. -/
inductive TypeRef where
  | u8
  | u16
  | u32
  | u64
  | char
  /-- The definition of that name. -/
  | named (name : String)
  | array (element : TypeRef) (count : UInt64)
  | pointer (target : TypeRef)
  /-- A union without a name of its own. -/
  | union (members : List Field)

structure Field where
  name : String
  type : TypeRef

end

/-- What a name is defined as. -/
inductive TypeKind where
  | struct (fields : List Field)
  | union (members : List Field)
  | aliasOf (target : TypeRef)

namespace TypeKind

/-- The word used for it in tables. -/
def display : TypeKind → String
  | struct _ => "struct"
  | union _ => "union"
  | aliasOf _ => "typedef"

end TypeKind

structure TypeDef where
  name : String
  kind : TypeKind

/-- What names stand for. -/
abbrev TypeTable := String → Option TypeDef

/-- The table of a list of definitions, where the last one of a name counts. -/
def TypeTable.ofList (defs : List TypeDef) : TypeTable := fun name =>
  defs.reverse.find? (·.name = name)

end TeImage
