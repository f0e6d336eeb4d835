/-
The size of a type in bytes.

A size is computed by expanding the type as far as its bytes reach: through fields, elements and
names, but not through pointers. Expansion goes down at most `TypeRef.maxLevels` levels, and no
size reached on the way may need more than 64 bits; else the type has no size. A type that
contains itself therefore has none.
-/
import TeImage.Types.Basic

namespace TeImage

namespace Size

/-- The sum, if 64 bits hold it. -/
def add (a b : UInt64) : Option UInt64 :=
  if a.toNat + b.toNat < UInt64.size then some (a + b) else none

/-- The product, if 64 bits hold it. -/
def mul (a b : UInt64) : Option UInt64 :=
  if a.toNat * b.toNat < UInt64.size then some (a * b) else none

variable {α : Type}

/-- The size of things one after the other. The first without a size ends the search. -/
def total (size : α → Option UInt64) : List α → Option UInt64
  | [] => some 0
  | a :: rest => do
    let first ← size a
    let others ← total size rest
    add first others

/-- The size of things on top of each other. The first without a size ends the search. -/
def largest (size : α → Option UInt64) : List α → Option UInt64
  | [] => some 0
  | a :: rest => do
    let first ← size a
    let others ← largest size rest
    return max first others

end Size

/-- The size of a definition, from the size of a type that stands in a field and the size of the
type that an alias stands for. -/
def TypeKind.sizeBy (field target : TypeRef → Option UInt64) : TypeKind → Option UInt64
  | struct fields => Size.total (fun f => field f.type) fields
  | union members => Size.largest (fun f => field f.type) members
  | aliasOf t => target t

namespace TypeRef

/-- How many levels of a type are expanded. -/
def maxLevels : Nat := 33

/-- The size of a type when `levels` levels may be expanded. The fields of a named structure or
union stand one level below the name, the target of an alias two. -/
def sizeWithin (pointerSize : UInt64) (types : TypeTable) : (levels : Nat) → TypeRef → Option UInt64
  | 0, _ => none
  | levels + 1, t =>
    match t with
    | u8 => some 1
    | u16 => some 2
    | u32 => some 4
    | u64 => some 8
    | char => some 1
    | pointer _ => some pointerSize
    | array element count => do Size.mul (← sizeWithin pointerSize types levels element) count
    | union members =>
      Size.largest (fun f => sizeWithin pointerSize types levels f.type) members
    | named name => do
      let found ← types name
      found.kind.sizeBy (sizeWithin pointerSize types levels) <|
        match levels with
        | 0 => fun _ => none
        | levels + 1 => sizeWithin pointerSize types levels

/-- The size of a type whose names stand for what `types` says. -/
def size (pointerSize : UInt64) (types : TypeTable) (t : TypeRef) : Option UInt64 :=
  t.sizeWithin pointerSize types maxLevels

end TypeRef

/-- The size of a definition. The target of an alias stands one level below it. -/
def TypeDef.size (pointerSize : UInt64) (types : TypeTable) (d : TypeDef) : Option UInt64 :=
  d.kind.sizeBy (TypeRef.sizeWithin pointerSize types TypeRef.maxLevels)
    (TypeRef.sizeWithin pointerSize types (TypeRef.maxLevels - 1))

end TeImage
