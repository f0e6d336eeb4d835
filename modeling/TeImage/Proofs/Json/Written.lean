/-
Written JSON text as a spelling: strings, numbers, lists, records and choices are read from the text
that `write` gives for them, on one line or on many, as soon as their parts are.
-/
import Mathlib.Tactic
import TeImage.Proofs.Json.Spelling

namespace TeImage.Json

variable {α β : Type} {level : Option Nat}

/-! ## Nesting -/

mutual

/-- How deep brackets nest in the text of a value, its own included. -/
def depth : Json → Nat
  | null | bool _ | number _ | string _ => 0
  | array items => depthOfItems items + 1
  | object members => depthOfMembers members + 1

def depthOfItems : List Json → Nat
  | [] => 0
  | item :: items => max item.depth (depthOfItems items)

def depthOfMembers : List (String × Json) → Nat
  | [] => 0
  | (_, value) :: members => max value.depth (depthOfMembers members)

end

theorem depth_array_le_iff {items : List Json} {n : Nat} :
    (array items).depth ≤ n ↔ ∃ m, n = m + 1 ∧ ∀ item ∈ items, item.depth ≤ m := by
  have each (m : Nat) : depthOfItems items ≤ m ↔ ∀ item ∈ items, item.depth ≤ m := by
    induction items with
    | nil => simp [depthOfItems]
    | cons item items ih => simp [depthOfItems, ih]
  cases n with
  | zero => simp [depth]
  | succ n => simp [depth, each]

@[simp]
theorem depth_variant (name : String) (value : Json) :
    (object [(name, value)]).depth = value.depth + 1 := by
  simp [depth, depthOfMembers]

@[simp]
theorem depth_record (name key : String) (value : Json) :
    (object [("name", string name), (key, value)]).depth = value.depth + 1 := by
  simp [depth, depthOfMembers]

@[simp]
theorem depth_pair (first : Json) (n : Nat) : (array [first, nat n]).depth = first.depth + 1 := by
  simp [depth, depthOfItems, nat]

/-! ## Values without parts -/

theorem reads_write_string (level : Option Nat) (s : String) :
    Reads text ((string s).write level) s :=
  (spelled_flatMap_escape s.toList).reads_text

theorem reads_write_nat (level : Option Nat) (n : UInt64) :
    Reads count ((nat n.toNat).write level) n := by
  have digits : (nat n.toNat).write level = Nat.toDigits 10 n.toNat := by
    have decimal : (nat n.toNat).write level = (Nat.repr n.toNat).toList := rfl
    rw [decimal, Nat.repr_eq_ofList_toDigits, String.toList_ofList]
  have read := reads_count n.toNat_lt
  rwa [UInt64.ofNat_toNat, ← digits] at read

/-! ## Lists -/

theorem separates_lineBreak (level : Option Nat) : Separates true (lineBreak level) :=
  .first (blanks_lineBreak level)

theorem separates_comma (level : Option Nat) : Separates false (',' :: lineBreak level) :=
  .next blanks_nil (blanks_lineBreak level)

theorem elements_writeItems {element : Reader α} {items : List Json} {as : List α}
    (h : List.Forall₂ (fun item a => Reads element (item.write level) a) items as)
    {ws : List Char} (blanks : Blanks ws) :
    Elements element false (writeItems level items ++ (ws ++ [']'])) as := by
  induction h with
  | nil => exact .close blanks
  | @cons item a items as head _ ih =>
    have step := Elements.cons (separates_comma level) head ih
    simpa only [writeItems, List.cons_append, List.append_assoc] using step

theorem reads_write_array {element : Reader α} {items : List Json} {as : List α}
    (h : List.Forall₂ (fun item a => Reads element (item.write (deeper level)) a) items as) :
    Reads (list (some element)) ((array items).write level) as := by
  cases h with
  | nil =>
    have close : Elements element true ([] ++ [']']) [] := .close blanks_nil
    exact close.list
  | @cons item a items as head others =>
    have behind := elements_writeItems others (blanks_lineBreak level)
    have inner := Elements.cons (separates_lineBreak (deeper level)) head behind
    simpa only [write, List.cons_append, List.append_assoc] using inner.list

theorem reads_write_pair {first : Reader α} {second : Reader β} {j j' : Json} {a : α} {b : β}
    (h : Reads first (j.write (deeper level)) a) (h' : Reads second (j'.write (deeper level)) b) :
    Reads (pair (some (first, second))) ((array [j, j']).write level) (a, b) := by
  have inner := reads_pair (separates_lineBreak (deeper level)) h
    (separates_comma (deeper level)) h' (blanks_lineBreak level)
  simpa only [write, writeItems, List.cons_append, List.append_assoc, List.nil_append] using inner

/-! ## Records and choices -/

theorem label_write {first : Bool} {sep : List Char} (separates : Separates first sep)
    (name : String) (level : Option Nat) :
    Label first name (sep ++ (quote name ++ colon level)) := by
  have colon_eq : ∃ ws, Blanks ws ∧ colon level = ':' :: ws := by
    cases level with
    | none => exact ⟨[], blanks_nil, rfl⟩
    | some => exact ⟨[' '], by simp [Blanks, isBlank], rfl⟩
  obtain ⟨ws, blanks, same⟩ := colon_eq
  have label := Label.intro separates (spelled_flatMap_escape name.toList) blanks_nil blanks
  simpa only [quote, same, List.cons_append, List.append_assoc, List.nil_append] using label

theorem reads_write_record {body : Reader β} {key : String} (distinct : key ≠ "name") {j : Json}
    {b : β} (h : Reads body (j.write (deeper level)) b) (name : String) :
    Reads (record key (some body)) ((object [("name", string name), (key, j)]).write level)
      (name, b) := by
  have close : Members key body false (some name) (some b) (lineBreak level ++ ['}']) (name, b) :=
    .close (blanks_lineBreak level)
  have second := Members.body
    (label_write (separates_comma (deeper level)) key (deeper level)) h close
  have first := Members.name (label_write (separates_lineBreak (deeper level)) "name" level)
    (reads_write_string (deeper level) name) second
  simpa only [write, writeMembers, List.cons_append, List.append_assoc, List.nil_append]
    using first.record distinct

variable {variants : String → Option (Variant α)} {name : String} {a : α}

theorem reads_write_bare (known : variants name = some (.bare a)) (nested : Bool) :
    Reads (choice variants nested) ((string name).write level) a :=
  (spelled_flatMap_escape name.toList).reads_bare known nested

theorem reads_write_variant {r : Reader α} {j : Json} (known : variants name = some (.loaded r))
    (h : Reads r (j.write (deeper level)) a) :
    Reads (choice variants true) ((object [(name, j)]).write level) a := by
  have label := label_write (separates_lineBreak (deeper level)) name level
  have inner := label.reads_variant known h (blanks_lineBreak level)
  simpa only [write, writeMembers, List.cons_append, List.append_assoc, List.nil_append] using inner

/-! ## Whole texts -/

/-- What is read from the text of a value on one line and on many lines alike. -/
theorem parse_compact_pretty {r : Reader α} {j : Json} (h : ∀ level, Reads r (j.write level) a) :
    parse r j.compact = .ok a ∧ parse r j.pretty = .ok a := by
  have whole (level : Option Nat) : parse r (String.ofList (j.write level)) = .ok a := by
    simpa using (h level).parse blanks_nil blanks_nil
  exact ⟨whole none, whole (some 0)⟩

end TeImage.Json
