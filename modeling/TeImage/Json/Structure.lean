/-
Readers of values with parts, made from the readers of the parts: lists, pairs, records of a name
and one more member, and choices between named variants.

A reader of parts is given as an `Option`: there is none where brackets may not nest any further,
and then an opening bracket is malformed.
-/
import TeImage.Json.Reader

namespace TeImage.Json

variable {α β : Type}

/-- Gives every value read by `r` the form `f`. -/
def mapped (f : α → β) (r : Reader α) : Reader β := fun cs => do
  let (a, rest) ← r cs
  return (f a, rest)

/-! ## Lists -/

/-- The elements behind an opening bracket or behind an element, up to the closing bracket. Each
but the first takes a comma from the text, so the text with one character more may be the
`bound`. -/
def elements (element : Reader α) : (bound : List Char) → (first : Bool) → Reader (List α)
  | [], _, _ => .error .ended
  | _ :: bound, first, cs =>
    match skipBlanks cs with
    | [] => .error .ended
    | c :: cs =>
      if c = ']' then .ok ([], cs)
      else if first then more bound (c :: cs)
      else if c = ',' then
        match skipBlanks cs with
        | [] => .error .ended
        | d :: cs => if d = ']' then .error .malformed else more bound (d :: cs)
      else .error .malformed
where
  more (bound : List Char) : Reader (List α) := fun cs => do
    let (a, rest) ← element cs
    let (as, rest) ← elements element bound false rest
    return (a :: as, rest)

/-- A list, each element read by `element?`. -/
def list (element? : Option (Reader α)) : Reader (List α) := fun cs =>
  match skipBlanks cs with
  | [] => .error .ended
  | c :: cs =>
    if c = '[' then
      match element? with
      | none => .error .malformed
      | some element => elements element (c :: cs) true cs
    else .error (otherKind (c :: cs))

/-! ## Lists of a fixed length -/

/-- The first element of a list that may not be empty. -/
def firstOf (element : Reader α) : Reader α := fun cs =>
  match skipBlanks cs with
  | [] => .error .ended
  | c :: cs => if c = ']' then .error .unsuitable else element (c :: cs)

/-- A further element of a list that must have one. -/
def nextOf (element : Reader α) : Reader α := fun cs =>
  match skipBlanks cs with
  | [] => .error .ended
  | c :: cs =>
    if c = ']' then .error .unsuitable
    else if c = ',' then
      match skipBlanks cs with
      | [] => .error .ended
      | d :: cs => if d = ']' then .error .malformed else element (d :: cs)
    else .error .malformed

/-- The text behind the end of a list that has all its elements. -/
def closeList (cs : List Char) : Except Fault (List Char) :=
  match skipBlanks cs with
  | [] => .error .ended
  | c :: cs => if c = ']' then .ok cs else .error .malformed

/-- Two elements behind the opening bracket, and the closing bracket. -/
def pairRest (first : Reader α) (second : Reader β) : Reader (α × β) := fun cs => do
  let (a, cs) ← firstOf first cs
  let (b, cs) ← nextOf second cs
  let cs ← closeList cs
  return ((a, b), cs)

/-- A list of two elements. -/
def pair (elements? : Option (Reader α × Reader β)) : Reader (α × β) := fun cs =>
  match skipBlanks cs with
  | [] => .error .ended
  | c :: cs =>
    if c = '[' then
      match elements? with
      | none => .error .malformed
      | some (first, second) => pairRest first second cs
    else .error (otherKind (c :: cs))

/-! ## Records -/

/-- Goes to the next member of an object: behind the opening quote of its name, or to `none` behind
the closing bracket. -/
def nextMember (first : Bool) (cs : List Char) : Except Fault (Option Unit × List Char) :=
  match skipBlanks cs with
  | [] => .error .ended
  | c :: cs =>
    if c = '}' then .ok (none, cs)
    else if first then
      if c = '"' then .ok (some (), cs) else .error .malformed
    else if c = ',' then
      match skipBlanks cs with
      | [] => .error .ended
      | d :: cs => if d = '"' then .ok (some (), cs) else .error .malformed
    else .error .malformed

/-- The members of an object from one member on, given what was found before: a name under
`"name"` and a body under `key`. Members of other names are passed over, and neither of the two may
come twice. Each member takes characters from the text, so the text with one character more may be
the `bound`. -/
def members (key : String) (body : Reader β) :
    (bound : List Char) → (first : Bool) → Option String → Option β → Reader (String × β)
  | [], _, _, _, _ => .error .ended
  | _ :: bound, first, name?, body?, cs => do
    let (member?, cs) ← nextMember first cs
    match member? with
    | none =>
      match name?, body? with
      | some name, some b => return ((name, b), cs)
      | _, _ => .error .unsuitable
    | some () =>
      let (found, cs) ← stringBody cs
      if found = "name" then
        if name?.isSome then .error .unsuitable
        else
          let (name, cs) ← text (← skipColon cs)
          members key body bound false (some name) body? cs
      else if found = key then
        if body?.isSome then .error .unsuitable
        else
          let (b, cs) ← body (← skipColon cs)
          members key body bound false name? (some b) cs
      else
        let cs ← skipValue (← skipColon cs)
        members key body bound false name? body? cs

/-- A record of a name and a body: an object with the members `"name"` and `key`, or a list of the
two in this order. -/
def record (key : String) (body? : Option (Reader β)) : Reader (String × β) := fun cs =>
  match skipBlanks cs with
  | [] => .error .ended
  | c :: cs =>
    if c = '{' then
      match body? with
      | none => .error .malformed
      | some body => members key body (c :: cs) true none none cs
    else if c = '[' then
      match body? with
      | none => .error .malformed
      | some body => pairRest text body cs
    else .error (otherKind (c :: cs))

/-! ## Choices -/

/-- How a variant is written: by its name alone, or with a value to be read. -/
inductive Variant (α : Type) where
  | bare (a : α)
  | loaded (payload : Reader α)

/-- The value of a variant in the form of an object's only member. -/
def Variant.payload : Variant α → Reader α
  | bare a => mapped (fun _ => a) nullWord
  | loaded r => r

/-- The text behind the end of an object that may have no further member. -/
def closeObject (cs : List Char) : Except Fault (List Char) :=
  match skipBlanks cs with
  | [] => .error .ended
  | c :: cs => if c = '}' then .ok cs else .error .malformed

/-- The name of a member behind an opening brace or a comma. -/
def memberName : Reader String := fun cs =>
  match skipBlanks cs with
  | [] => .error .ended
  | c :: cs => if c = '"' then stringBody cs else .error .malformed

/-- One of the variants that `variants` knows by name: a string with the name of a bare variant, or
an object with the name as its only member. -/
def choice (variants : String → Option (Variant α)) (nested : Bool) : Reader α := fun cs =>
  match skipBlanks cs with
  | [] => .error .ended
  | c :: cs =>
    if c = '"' then do
      let (name, cs) ← stringBody cs
      match variants name with
      | some (.bare a) => return (a, cs)
      | _ => .error .unsuitable
    else if c = '{' then
      if !nested then .error .malformed
      else do
        let (name, cs) ← memberName cs
        match variants name with
        | none => .error .unsuitable
        | some variant =>
          let (a, cs) ← variant.payload (← skipColon cs)
          let cs ← closeObject cs
          return (a, cs)
    else .error .malformed

/-! ## Whole texts -/

/-- Reads a text that holds one value and blanks. -/
def parse (r : Reader α) (s : String) : Except Fault α := do
  let (a, rest) ← r s.toList
  match skipBlanks rest with
  | [] => return a
  | _ :: _ => .error .malformed

end TeImage.Json
