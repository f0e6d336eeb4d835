/-
JSON text as a tree. A tree keeps what is said in a text: the order of members, names that come
twice and numbers digit by digit, but neither blanks nor the escapes of strings. So a tree has many
texts (`Tree.Text`), the one that is written for a value among them (`Tree.text_write`), and each
of them is passed over as one value (`Tree.Text.passedOver`).
-/
import Mathlib.Tactic
import TeImage.Proofs.Json.Skipping
import TeImage.Proofs.Json.Written

namespace TeImage.Json

open Relation

/-- A value as it stands in a text. A string that holds half a surrogate pair has no characters. -/
inductive Tree where
  | null
  | bool (b : Bool)
  | number (text : List Char)
  | string (s? : Option String)
  | array (items : List Tree)
  | object (members : List (Option String × Tree))

/-- `t` may stand between the quotes of a string with the characters `s?`. -/
structure Quotes (t : List Char) (s? : Option String) : Prop where
  text : StringText t
  spelled : ∀ s, s? = some s ↔ Spelled t s.toList

/-- What stands before the value of a member whose name has the characters `name?`. -/
inductive Named (first : Bool) (name? : Option String) : List Char → Prop where
  | intro {sep t ws ws' : List Char} (separates : Separates first sep) (quotes : Quotes t name?)
      (blanks : Blanks ws) (blanks' : Blanks ws') :
      Named first name? (sep ++ '"' :: (t ++ '"' :: (ws ++ ':' :: ws')))

namespace Tree

mutual

/-- The texts of a tree. -/
inductive Text : Tree → List Char → Prop where
  | null : Text .null ['n', 'u', 'l', 'l']
  | trueWord : Text (.bool true) ['t', 'r', 'u', 'e']
  | falseWord : Text (.bool false) ['f', 'a', 'l', 's', 'e']
  | number {t : List Char} (digits : NumberText t) : Text (.number t) t
  | negative {t : List Char} (digits : NumberText t) : Text (.number ('-' :: t)) ('-' :: t)
  | string {t : List Char} {s? : Option String} (quotes : Quotes t s?) :
      Text (.string s?) ('"' :: (t ++ ['"']))
  | array {items : List Tree} {ts : List Char} (inner : ItemsText true items ts) :
      Text (.array items) ('[' :: ts)
  | object {members : List (Option String × Tree)} {ts : List Char}
      (inner : MembersText true members ts) : Text (.object members) ('\x7b' :: ts)

/-- The texts of elements and the closing bracket. -/
inductive ItemsText : (first : Bool) → List Tree → List Char → Prop where
  | close {first : Bool} {ws : List Char} (blanks : Blanks ws) : ItemsText first [] (ws ++ [']'])
  | cons {first : Bool} {sep t ts : List Char} {item : Tree} {items : List Tree}
      (separates : Separates first sep) (text : Text item t) (more : ItemsText false items ts) :
      ItemsText first (item :: items) (sep ++ (t ++ ts))

/-- The texts of members and the closing brace. -/
inductive MembersText : (first : Bool) → List (Option String × Tree) → List Char → Prop where
  | close {first : Bool} {ws : List Char} (blanks : Blanks ws) :
      MembersText first [] (ws ++ ['\x7d'])
  | cons {first : Bool} {label t ts : List Char} {name? : Option String} {value : Tree}
      {members : List (Option String × Tree)} (named : Named first name? label)
      (text : Text value t) (more : MembersText false members ts) :
      MembersText first ((name?, value) :: members) (label ++ (t ++ ts))

end

/-! ## Nesting -/

mutual

/-- How deep brackets nest in a tree, its own included. -/
def depth : Tree → Nat
  | null | bool _ | number _ | string _ => 0
  | array items => depthOfItems items + 1
  | object members => depthOfMembers members + 1

def depthOfItems : List Tree → Nat
  | [] => 0
  | item :: items => max item.depth (depthOfItems items)

def depthOfMembers : List (Option String × Tree) → Nat
  | [] => 0
  | (_, value) :: members => max value.depth (depthOfMembers members)

end

theorem depth_array_le_iff {items : List Tree} {n : Nat} :
    (array items).depth ≤ n ↔ ∃ m, n = m + 1 ∧ ∀ item ∈ items, item.depth ≤ m := by
  have each (m : Nat) : depthOfItems items ≤ m ↔ ∀ item ∈ items, item.depth ≤ m := by
    induction items with
    | nil => simp [depthOfItems]
    | cons item items ih => simp [depthOfItems, ih]
  cases n with
  | zero => simp [depth]
  | succ n => simp [depth, each]

theorem depth_object_le_iff {members : List (Option String × Tree)} {n : Nat} :
    (object members).depth ≤ n ↔ ∃ m, n = m + 1 ∧ ∀ p ∈ members, p.2.depth ≤ m := by
  have each (m : Nat) : depthOfMembers members ≤ m ↔ ∀ p ∈ members, p.2.depth ≤ m := by
    induction members with
    | nil => simp [depthOfMembers]
    | cons p members ih => simp [depthOfMembers, ih]
  cases n with
  | zero => simp [depth]
  | succ n => simp [depth, each]

@[simp]
theorem depth_variant (name? : Option String) (j : Tree) :
    (object [(name?, j)]).depth = j.depth + 1 := by
  simp [depth, depthOfMembers]

@[simp]
theorem depth_pair (j j' : Tree) : (array [j, j']).depth = max j.depth j'.depth + 1 := by
  simp [depth, depthOfItems]

theorem depth_lt_of_item {item : Tree} {items : List Tree} (h : item ∈ items) :
    item.depth < (array items).depth := by
  obtain ⟨m, same, each⟩ := depth_array_le_iff.1 (le_refl (array items).depth)
  rw [same]
  exact Nat.lt_succ_of_le (each item h)

theorem depth_lt_of_member {p : Option String × Tree} {members : List (Option String × Tree)}
    (h : p ∈ members) : p.2.depth < (object members).depth := by
  obtain ⟨m, same, each⟩ := depth_object_le_iff.1 (le_refl (object members).depth)
  rw [same]
  exact Nat.lt_succ_of_le (each p h)

end Tree

/-! ## Strings and names -/

section

variable {t : List Char} {s? : Option String}

theorem Spelled.quotes {s : String} (h : Spelled t s.toList) : Quotes t (some s) := by
  refine ⟨h.stringText, fun s' => ?_⟩
  constructor
  · intro same
    cases same
    exact h
  · intro h'
    rw [h.unique h']

theorem Quotes.skipString (h : Quotes t s?) (rest : List Char) :
    skipString (t ++ '"' :: rest) = .ok rest :=
  skipString_eq_ok_iff.2 ⟨t, rfl, h.text⟩

/-- A string is kept with its characters only, and to its closing quote. -/
theorem Quotes.stringBody_eq_ok_iff (h : Quotes t s?) {rest rest' : List Char} {s : String} :
    stringBody (t ++ '"' :: rest) = .ok (s, rest') ↔ s? = some s ∧ rest' = rest := by
  rw [h.spelled, Json.stringBody_eq_ok_iff]
  constructor
  · rintro ⟨t', same, spelled⟩
    -- passing over the string shows where it closes
    have end' := skipString_eq_ok_iff.2 ⟨t', same, spelled.stringText⟩
    rw [h.skipString rest] at end'
    cases end'
    rw [List.append_cancel_right same]
    exact ⟨spelled, rfl⟩
  · rintro ⟨spelled, rfl⟩
    exact ⟨t, rfl, spelled⟩

variable {first : Bool} {front : List Char}

theorem Label.named {name : String} (h : Label first name front) :
    Named first (some name) front := by
  cases h with
  | intro separates spelled blanks blanks' => exact .intro separates spelled.quotes blanks blanks'

theorem Named.label {name : String} (h : Named first (some name) front) :
    Label first name front := by
  cases h with
  | intro separates quotes blanks blanks' =>
    exact .intro separates ((quotes.spelled name).1 rfl) blanks blanks'

end

/-! ## Passing over -/

theorem NumberText.exists_digit {t : List Char} (h : NumberText t) :
    ∃ d ds, t = d :: ds ∧ d.isDigit = true := by
  obtain @⟨whole, fraction, exponent, wholeText, -, -⟩ := h
  obtain ⟨d, ds, rfl⟩ := List.exists_cons_of_ne_nil wholeText.nonempty
  exact ⟨d, _, rfl, wholeText.digits d List.mem_cons_self⟩

theorem not_numberText_cons {c : Char} {t : List Char} (h : c.isDigit = false) :
    ¬ NumberText (c :: t) := by
  intro number
  obtain ⟨_, _, same, digit⟩ := number.exists_digit
  cases same
  rw [h] at digit
  cases digit

/-- A digit begins a number and nothing else. -/
theorem skipScalar_digit {d : Char} (h : d.isDigit = true) (cs : List Char) :
    skipScalar d cs = skipNumeral (d :: cs) ∧ d ≠ '[' ∧ d ≠ '\x7b' := by
  have other {c : Char} (hc : c.isDigit = false) : d ≠ c := by
    rintro rfl
    rw [h] at hc
    cases hc
  refine ⟨?_, other rfl, other rfl⟩
  have n : d ≠ 'n' := other rfl
  have t : d ≠ 't' := other rfl
  have f : d ≠ 'f' := other rfl
  have minus : d ≠ '-' := other rfl
  simp only [skipScalar, n, t, f, minus, h, if_true, if_false]

theorem skipOpening_scalar {c : Char} {cs rest : List Char} (opened : List Bracket)
    (square : c ≠ '[') (curly : c ≠ '\x7b') (h : skipScalar c cs = .ok rest) :
    skipOpening opened c cs = .ok (.next, opened, rest) := by
  simp only [skipOpening, square, curly, if_false, h]
  rfl

theorem skipBlanks_close {ws : List Char} (blanks : Blanks ws) (bracket : Bracket)
    (rest : List Char) :
    skipBlanks (ws ++ [bracket.closing] ++ rest) = bracket.closing :: rest := by
  rw [List.append_assoc]
  cases bracket <;> exact skipBlanks_to blanks rfl rest

namespace Tree

theorem Text.opens {j : Tree} {t : List Char} (h : Text j t) :
    ∃ c t', t = c :: t' ∧ isBlank c = false ∧ c ≠ ']' ∧ c ≠ '\x7d' ∧ c ≠ ',' := by
  cases h with
  | number digits =>
    obtain ⟨d, ds, rfl, digit⟩ := digits.exists_digit
    refine ⟨d, ds, rfl, isBlank_of_isDigit digit, ?_, ?_, ?_⟩ <;> (rintro rfl; cases digit)
  | _ => exact ⟨_, _, rfl, rfl, by decide⟩

theorem ItemsText.delimited {items : List Tree} {ts : List Char} (h : ItemsText false items ts)
    (rest : List Char) : Delimited (ts ++ rest) := by
  cases h with
  | close blanks =>
    rw [List.append_assoc]
    exact delimited_append blanks (delimited_cons (by decide) _)
  | cons separates =>
    rw [List.append_assoc]
    exact separates.delimited _

theorem MembersText.delimited {members : List (Option String × Tree)} {ts : List Char}
    (h : MembersText false members ts) (rest : List Char) : Delimited (ts ++ rest) := by
  cases h with
  | close blanks =>
    rw [List.append_assoc]
    exact delimited_append blanks (delimited_cons (by decide) _)
  | cons named =>
    obtain ⟨separates⟩ := named
    rw [List.append_assoc, List.append_assoc]
    exact separates.delimited _

end Tree

/-- The step behind the name of a member. -/
theorem Named.step {first : Bool} {name? : Option String} {front : List Char}
    (h : Named first name? front) (opened : List Bracket) (rest : List Char) :
    ∃ ws, Blanks ws ∧ SkipStep (if first then .first else .next, .curly :: opened, front ++ rest)
      (.value, .curly :: opened, ws ++ rest) := by
  obtain @⟨sep, t, ws, ws', separates, quotes, blanks, blanks'⟩ := h
  have name {before : List Char} (blank : Blanks before) (cs : List Char) :
      skipName (before ++ '"' :: (t ++ '"' :: (ws ++ ':' :: cs))) = .ok cs :=
    skipName_eq_ok_iff.2 ⟨_, _, skipBlanks_to blank rfl _, quotes.skipString _,
      skipColon_append blanks _⟩
  refine ⟨ws', blanks', ?_⟩
  simp only [List.append_assoc, List.cons_append]
  cases separates with
  | first before =>
    have found := name blanks_nil (ws' ++ rest)
    rw [List.nil_append] at found
    refine .first (skipBlanks_to before rfl _) (by decide) ?_
    simp only [skipItem, found]
    rfl
  | next before before' =>
    rw [List.append_assoc]
    exact .nextMember (skipBlanks_to (c := ',') before rfl _) (name before' (ws' ++ rest))

namespace Tree

mutual

/-- A value is passed over from its first character on. -/
theorem Text.steps {j : Tree} {t : List Char} (h : Text j t) (opened : List Bracket)
    {rest : List Char} (ends : Delimited rest) : ∃ c t' q, t = c :: t' ∧
      skipOpening opened c (t' ++ rest) = .ok q ∧
      ReflTransGen SkipStep q (.next, opened, rest) := by
  cases h with
  | null | trueWord | falseWord => exact ⟨_, _, _, rfl, rfl, .refl⟩
  | number digits =>
    obtain ⟨d, ds, rfl, digit⟩ := digits.exists_digit
    obtain ⟨scalar, square, curly⟩ := skipScalar_digit digit (ds ++ rest)
    have passed := scalar.trans (digits.skipNumeral ends)
    exact ⟨_, _, _, rfl, skipOpening_scalar opened square curly passed, .refl⟩
  | @negative t digits =>
    have passed : skipScalar '-' (t ++ rest) = .ok rest := digits.skipNumeral ends
    exact ⟨_, _, _, rfl, skipOpening_scalar opened (by decide) (by decide) passed, .refl⟩
  | @string t s? quotes =>
    have passed : skipScalar '"' (t ++ ['"'] ++ rest) = .ok rest := by
      rw [List.append_assoc]
      exact quotes.skipString rest
    exact ⟨_, _, _, rfl, skipOpening_scalar opened (by decide) (by decide) passed, .refl⟩
  | array inner => exact ⟨_, _, _, rfl, rfl, ItemsText.steps inner opened ends⟩
  | object inner => exact ⟨_, _, _, rfl, rfl, MembersText.steps inner opened ends⟩

theorem ItemsText.steps {first : Bool} {items : List Tree} {ts : List Char}
    (h : ItemsText first items ts) (opened : List Bracket) {rest : List Char}
    (ends : Delimited rest) : ReflTransGen SkipStep
      (if first then .first else .next, .square :: opened, ts ++ rest) (.next, opened, rest) := by
  cases h with
  | close blanks =>
    exact .single (.close (by cases first <;> nofun) (skipBlanks_close blanks .square rest))
  | @cons _ sep t ts item items separates text more =>
    have others := ItemsText.steps more opened ends
    obtain ⟨c, t, q, rfl, opening, head⟩ :=
      Text.steps text (.square :: opened) (more.delimited rest)
    obtain ⟨_, _, same, shown, notSquare, -⟩ := text.opens
    cases same
    rw [List.append_assoc, List.append_assoc]
    have whole := head.trans others
    -- the first element is taken up at once, a further one in a step behind its comma
    cases separates with
    | first blanks =>
      exact .head (.first (skipBlanks_to blanks shown _) notSquare opening) whole
    | next blanks blanks' =>
      rw [List.append_assoc]
      exact .head (.nextElement (skipBlanks_to (c := ',') blanks rfl _))
        (.head (.value (skipBlanks_to blanks' shown _) opening) whole)

theorem MembersText.steps {first : Bool} {members : List (Option String × Tree)} {ts : List Char}
    (h : MembersText first members ts) (opened : List Bracket) {rest : List Char}
    (ends : Delimited rest) : ReflTransGen SkipStep
      (if first then .first else .next, .curly :: opened, ts ++ rest) (.next, opened, rest) := by
  cases h with
  | close blanks =>
    exact .single (.close (by cases first <;> nofun) (skipBlanks_close blanks .curly rest))
  | @cons _ front t ts name? value members named text more =>
    have others := MembersText.steps more opened ends
    obtain ⟨c, t, q, rfl, opening, head⟩ :=
      Text.steps text (.curly :: opened) (more.delimited rest)
    obtain ⟨_, _, same, shown, -⟩ := text.opens
    cases same
    rw [List.append_assoc, List.append_assoc]
    obtain ⟨ws, blanks, step⟩ := named.step opened (c :: t ++ (ts ++ rest))
    exact .head step (.head (.value (skipBlanks_to blanks shown _) opening) (head.trans others))

end

theorem Text.passedOver {j : Tree} {t : List Char} (h : Text j t) : PassedOver t := by
  intro ws rest blanks ends
  obtain ⟨c, t, q, rfl, opening, steps⟩ := h.steps [] ends
  obtain ⟨_, _, same, shown, -⟩ := h.opens
  cases same
  have found := skipBlanks_to blanks shown (t ++ rest)
  exact skipValue_eq_ok_iff.2 ⟨.next, nofun, .head (.value found opening) steps⟩

end Tree

/-! ## What is written -/

theorem wholeText_toDigits (n : Nat) : WholeText (Nat.toDigits 10 n) where
  nonempty := Nat.toDigits_ne_nil
  digits := fun _ => Nat.isDigit_of_mem_toDigits (by decide) (by decide)
  noZero := toDigits_head n

theorem WholeText.number {ds : List Char} (h : WholeText ds) : NumberText ds := by
  simpa using NumberText.intro h .none .none

namespace Tree

mutual

/-- A value as a tree. -/
def ofJson : Json → Tree
  | .null => null
  | .bool b => bool b
  | .number n => number (toString n).toList
  | .string s => string (some s)
  | .array items => array (ofItems items)
  | .object members => object (ofMembers members)

def ofItems : List Json → List Tree
  | [] => []
  | item :: items => ofJson item :: ofItems items

def ofMembers : List (String × Json) → List (Option String × Tree)
  | [] => []
  | (name, value) :: members => (some name, ofJson value) :: ofMembers members

end

theorem ofItems_eq (items : List Json) : ofItems items = items.map ofJson := by
  induction items with
  | nil => rfl
  | cons item items ih => rw [ofItems, ih, List.map_cons]

mutual

theorem depth_ofJson : (j : Json) → (ofJson j).depth = j.depth
  | .null | .bool _ | .number _ | .string _ => rfl
  | .array items => congrArg (· + 1) (depth_ofItems items)
  | .object members => congrArg (· + 1) (depth_ofMembers members)

theorem depth_ofItems : (items : List Json) →
    depthOfItems (ofItems items) = Json.depthOfItems items
  | [] => rfl
  | item :: items => congrArg₂ max (depth_ofJson item) (depth_ofItems items)

theorem depth_ofMembers : (members : List (String × Json)) →
    depthOfMembers (ofMembers members) = Json.depthOfMembers members
  | [] => rfl
  | (_, value) :: members => congrArg₂ max (depth_ofJson value) (depth_ofMembers members)

end

theorem toList_repr (n : Nat) : (Nat.repr n).toList = Nat.toDigits 10 n := by
  rw [Nat.repr_eq_ofList_toDigits, String.toList_ofList]

theorem ofJson_nat (n : Nat) : ofJson (nat n) = number (Nat.toDigits 10 n) :=
  congrArg number (toList_repr n)

theorem text_number (n : Int) : Text (number (toString n).toList) (toString n).toList := by
  cases n with
  | ofNat m =>
    rw [show (toString (Int.ofNat m)).toList = Nat.toDigits 10 m from toList_repr m]
    exact .number (wholeText_toDigits m).number
  | negSucc m =>
    have same : (toString (Int.negSucc m)).toList = '-' :: Nat.toDigits 10 (m + 1) := by
      rw [← toList_repr, show toString (Int.negSucc m) = "-" ++ Nat.repr (m + 1) from rfl,
        String.toList_append]
      rfl
    rw [same]
    exact .negative (wholeText_toDigits (m + 1)).number

mutual

theorem text_write : (j : Json) → (level : Option Nat) → Text (ofJson j) (j.write level)
  | .null, _ => .null
  | .bool true, _ => .trueWord
  | .bool false, _ => .falseWord
  | .number n, _ => text_number n
  | .string s, _ => .string (spelled_flatMap_escape s.toList).quotes
  | .array [], _ => .array (.close blanks_nil)
  | .array (item :: items), level => by
    have others := itemsText_write items (deeper level) (blanks_lineBreak level)
    have inner := ItemsText.cons (separates_lineBreak (deeper level))
      (text_write item (deeper level)) others
    simpa only [ofJson, ofItems, write, List.cons_append, List.append_assoc] using Text.array inner
  | .object [], _ => .object (.close blanks_nil)
  | .object ((name, value) :: members), level => by
    have others := membersText_write members (deeper level) (blanks_lineBreak level)
    have front := (label_write (separates_lineBreak (deeper level)) name level).named
    have inner := MembersText.cons front (text_write value (deeper level)) others
    simpa only [ofJson, ofMembers, write, List.cons_append, List.append_assoc] using
      Text.object inner

theorem itemsText_write : (items : List Json) → (level : Option Nat) → {ws : List Char} →
    Blanks ws → ItemsText false (ofItems items) (writeItems level items ++ (ws ++ [']']))
  | [], _, _, blanks => .close blanks
  | item :: items, level, ws, blanks => by
    have step := ItemsText.cons (separates_comma level) (text_write item level)
      (itemsText_write items level blanks)
    simpa only [ofItems, writeItems, List.cons_append, List.append_assoc] using step

theorem membersText_write : (members : List (String × Json)) → (level : Option Nat) →
    {ws : List Char} → Blanks ws →
    MembersText false (ofMembers members) (writeMembers level members ++ (ws ++ ['\x7d']))
  | [], _, _, blanks => .close blanks
  | (name, value) :: members, level, ws, blanks => by
    have front := (label_write (separates_comma level) name level).named
    have step := MembersText.cons front (text_write value level)
      (membersText_write members level blanks)
    simpa only [ofMembers, writeMembers, List.cons_append, List.append_assoc] using step

end

end Tree

end TeImage.Json
