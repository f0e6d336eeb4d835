/-
JSON values and their text. Objects keep the order of their members. Text is written either on one
line without blanks (`compact`) or with every member and element on a line of its own, indented by
two blanks for each level (`pretty`); an empty array or object stays on one line in both.

Maps become objects if their keys can be names (`ofMap`).
-/

namespace TeImage

inductive Json where
  | null
  | bool (b : Bool)
  | number (n : Int)
  | string (s : String)
  | array (items : List Json)
  | object (members : List (String × Json))

namespace Json

/-- A number that is not negative. -/
def nat (n : Nat) : Json := number n

/-- `null` where there is nothing. -/
def ofOption {α : Type} (f : α → Json) : Option α → Json
  | none => null
  | some a => f a

/-! ## Text -/

/-- A character of a string as it is written between the quotes. -/
def escape (c : Char) : List Char :=
  if c = '"' then ['\\', '"']
  else if c = '\\' then ['\\', '\\']
  else if c = '\n' then ['\\', 'n']
  else if c = '\r' then ['\\', 'r']
  else if c = '\t' then ['\\', 't']
  else if c = '\x08' then ['\\', 'b']
  else if c = '\x0C' then ['\\', 'f']
  else if c < ' ' then
    ['\\', 'u', '0', '0', Nat.digitChar (c.toNat / 16), Nat.digitChar (c.toNat % 16)]
  else [c]

def quote (s : String) : List Char := '"' :: (s.toList.flatMap escape ++ ['"'])

/-- A new line at a level of nesting, or nothing when all goes on one line. -/
def lineBreak : Option Nat → List Char
  | none => []
  | some level => '\n' :: List.replicate (2 * level) ' '

/-- What stands behind the name of a member. -/
def colon : Option Nat → List Char
  | none => [':']
  | some _ => [':', ' ']

/-- One level further in. -/
def deeper (level : Option Nat) : Option Nat := level.map (· + 1)

mutual

/-- The text of a value, at a level of nesting or all on one line. -/
def write (level : Option Nat) : Json → List Char
  | null => "null".toList
  | bool b => (if b then "true" else "false").toList
  | number n => (toString n).toList
  | string s => quote s
  | array [] => ['[', ']']
  | array (item :: items) =>
    '[' :: lineBreak (deeper level) ++ write (deeper level) item
      ++ writeItems (deeper level) items ++ lineBreak level ++ [']']
  | object [] => ['{', '}']
  | object ((name, value) :: members) =>
    '{' :: lineBreak (deeper level) ++ quote name ++ colon level ++ write (deeper level) value
      ++ writeMembers (deeper level) members ++ lineBreak level ++ ['}']

/-- The text of further elements, each behind a comma. -/
def writeItems (level : Option Nat) : List Json → List Char
  | [] => []
  | item :: items =>
    ',' :: lineBreak level ++ write level item ++ writeItems level items

/-- The text of further members, each behind a comma. -/
def writeMembers (level : Option Nat) : List (String × Json) → List Char
  | [] => []
  | (name, value) :: members =>
    ',' :: lineBreak level ++ quote name ++ colon level ++ write level value
      ++ writeMembers level members

end

/-- The text of a value on one line. -/
def compact (j : Json) : String := String.ofList (j.write none)

/-- The text of a value on many lines. -/
def pretty (j : Json) : String := String.ofList (j.write (some 0))

/-! ## Maps -/

/-- Why a map is no object. -/
inductive KeyFault where
  /-- One of its keys is neither a text nor written as one. -/
  | notText
  deriving DecidableEq, Repr

def KeyFault.message : KeyFault → String
  | notText => "key must be a string"

/-- The name that a key of a map gets. Numbers and truth values are written out. -/
def keyName : Json → Except KeyFault String
  | string s => .ok s
  | number n => .ok (toString n)
  | bool b => .ok (if b then "true" else "false")
  | null | array _ | object _ => .error .notText

/-- A map with keys of any kind as an object. -/
def ofMap (entries : List (Json × Json)) : Except KeyFault Json := do
  return object (← entries.mapM fun (key, value) => return (← key.keyName, value))

end Json

end TeImage
