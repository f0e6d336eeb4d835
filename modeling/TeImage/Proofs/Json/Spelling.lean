/-
The spellings that readers accept. A reader reads a value from a text (`Reads`) when it does so
wherever the text stands, with blanks before it and anything behind it that may follow a value. The
relations here put the spellings of lists, records and choices together from those of their parts;
each of them follows the recursion of its reader, so it has room for every order of members, for
members that are passed over and for blanks between all tokens.
-/
import Mathlib.Tactic
import TeImage.Proofs.Json.Acceptance
import TeImage.Proofs.Json.Tokens

namespace TeImage.Json

variable {α β : Type}

/-- `r` reads `a` from the text `cs`, which begins neither with a blank nor with a bracket that
closes a list. -/
structure Reads (r : Reader α) (cs : List Char) (a : α) : Prop where
  opens : ∃ c t, cs = c :: t ∧ isBlank c = false ∧ c ≠ ']'
  run : ∀ {ws rest : List Char}, Blanks ws → Delimited rest → r (ws ++ (cs ++ rest)) = .ok (a, rest)

/-- `cs` is passed over as one value. -/
def PassedOver (cs : List Char) : Prop :=
  ∀ {ws rest : List Char}, Blanks ws → Delimited rest → skipValue (ws ++ (cs ++ rest)) = .ok rest

theorem skipBlanks_to {ws : List Char} {c : Char} (h : Blanks ws) (hc : isBlank c = false)
    (cs : List Char) : skipBlanks (ws ++ c :: cs) = c :: cs := by
  rw [skipBlanks_append h, skipBlanks_cons hc]

/-! ## Values without parts -/

theorem Spelled.reads_text {t : List Char} {s : String} (h : Spelled t s.toList) :
    Reads text ('"' :: (t ++ ['"'])) s := by
  refine ⟨⟨_, _, rfl, rfl, by decide⟩, fun {ws rest} blanks _ => ?_⟩
  simp only [List.cons_append, List.append_assoc, List.nil_append]
  exact text_eq_ok_iff.2 ⟨_, skipBlanks_to blanks rfl _, h.stringBody rest⟩

theorem reads_count {n : Nat} (small : n < UInt64.size) :
    Reads count (Nat.toDigits 10 n) (UInt64.ofNat n) := by
  obtain ⟨d, ds, hd, digit⟩ := toDigits_eq_cons n
  have shown := isBlank_of_isDigit digit
  refine ⟨⟨d, ds, hd, shown, ?_⟩, fun {ws rest} blanks ends => ?_⟩
  · rintro rfl
    exact absurd digit (by decide)
  · obtain ⟨found, read, word⟩ := numeral_toDigits small ends
    rw [hd, List.cons_append] at read ⊢
    exact count_eq_ok_iff.2 ⟨d, _, found, skipBlanks_to blanks shown _, digit, read, word⟩

theorem reads_nullWord : Reads nullWord "null".toList () := by
  refine ⟨⟨_, _, rfl, rfl, by decide⟩, fun {ws rest} blanks _ => ?_⟩
  exact nullWord_eq_ok_iff.2 ⟨_, skipBlanks_to (c := 'n') blanks rfl _, rfl⟩

theorem Reads.mapped {r : Reader α} {cs : List Char} {a : α} (h : Reads r cs a) (f : α → β) :
    Reads (mapped f r) cs (f a) := by
  exact ⟨h.opens, fun blanks ends => mapped_eq_ok_iff.2 ⟨a, h.run blanks ends, rfl⟩⟩

/-! ## Lists -/

/-- What stands before an element or a member, behind the opening bracket or behind another one. -/
inductive Separates : (first : Bool) → List Char → Prop where
  | first {ws : List Char} (blanks : Blanks ws) : Separates true ws
  | next {ws ws' : List Char} (blanks : Blanks ws) (blanks' : Blanks ws') :
      Separates false (ws ++ ',' :: ws')

/-- The text of elements and the closing bracket. -/
inductive Elements (element : Reader α) : (first : Bool) → List Char → List α → Prop where
  | close {first : Bool} {ws : List Char} (blanks : Blanks ws) :
      Elements element first (ws ++ [']']) []
  | cons {first : Bool} {sep t ts : List Char} {a : α} {as : List α}
      (separates : Separates first sep) (reads : Reads element t a)
      (more : Elements element false ts as) :
      Elements element first (sep ++ (t ++ ts)) (a :: as)

theorem Separates.delimited {sep : List Char} (h : Separates false sep) (cs : List Char) :
    Delimited (sep ++ cs) := by
  cases h with
  | next blanks blanks' =>
    rw [List.append_assoc]
    exact delimited_append blanks (delimited_cons (by decide) _)

theorem Elements.delimited {element : Reader α} {ts : List Char} {as : List α}
    (h : Elements element false ts as) (rest : List Char) : Delimited (ts ++ rest) := by
  cases h with
  | close blanks =>
    rw [List.append_assoc]
    exact delimited_append blanks (delimited_cons (by decide) _)
  | cons separates reads more =>
    rw [List.append_assoc]
    exact separates.delimited _

section

variable {element : Reader α} {sep t rest : List Char} {a : α}

theorem firstOf_separated (separates : Separates true sep) (reads : Reads element t a)
    (ends : Delimited rest) : firstOf element (sep ++ (t ++ rest)) = .ok (a, rest) := by
  have read := reads.run blanks_nil ends
  obtain ⟨c, t, rfl, shown, other⟩ := reads.opens
  cases separates with
  | first blanks => exact firstOf_eq_ok_iff.2 ⟨c, _, skipBlanks_to blanks shown _, other, read⟩

theorem nextOf_separated (separates : Separates false sep) (reads : Reads element t a)
    (ends : Delimited rest) : nextOf element (sep ++ (t ++ rest)) = .ok (a, rest) := by
  have read := reads.run blanks_nil ends
  obtain ⟨c, t, rfl, shown, other⟩ := reads.opens
  cases separates with
  | next blanks blanks' =>
    rw [List.append_assoc]
    exact nextOf_eq_ok_iff.2 ⟨_, c, _, skipBlanks_to (c := ',') blanks rfl _,
      skipBlanks_to blanks' shown _, other, read⟩

theorem Elements.run {first : Bool} {ts : List Char} {as : List α}
    (h : Elements element first ts as) {bound : List Char} (room : ts.length ≤ bound.length) :
    elements element bound first (ts ++ rest) = .ok (as, rest) := by
  induction h generalizing bound with
  | close blanks =>
    obtain ⟨x, bound, rfl⟩ := List.exists_cons_of_length_pos (l := bound) (by simp at room; omega)
    rw [List.append_assoc]
    exact elements_cons_eq_ok_iff.2 (.inl ⟨rfl, skipBlanks_to (c := ']') blanks rfl rest⟩)
  | @cons first sep t ts a as separates reads more ih =>
    -- the element takes a character, so the bound has room for the others
    have some' : 0 < t.length := by
      obtain ⟨c, t, rfl, -⟩ := reads.opens
      simp
    simp only [List.length_append] at room
    obtain ⟨x, bound, rfl⟩ := List.exists_cons_of_length_pos (l := bound) (by omega)
    have others := ih (show ts.length ≤ bound.length by simp at room; omega)
    rw [List.append_assoc, List.append_assoc]
    refine elements_cons_eq_ok_iff.2 (.inr ⟨a, as, ts ++ rest, rfl, ?_, others⟩)
    cases first with
    | true => exact firstOf_separated separates reads (more.delimited rest)
    | false => exact nextOf_separated separates reads (more.delimited rest)

end

theorem Elements.list {element : Reader α} {ts : List Char} {as : List α}
    (h : Elements element true ts as) : Reads (list (some element)) ('[' :: ts) as := by
  refine ⟨⟨_, _, rfl, rfl, by decide⟩, fun {ws rest} blanks _ => ?_⟩
  have opened := skipBlanks_to (c := '[') blanks rfl (ts ++ rest)
  refine list_eq_ok_iff.2 ⟨element, _, rfl, opened, h.run ?_⟩
  simp only [List.length_cons, List.length_append]
  omega

/-! ## Lists of two elements -/

section

variable {first : Reader α} {second : Reader β} {s t s' t' ws : List Char} {a : α} {b : β}
  (separates : Separates true s) (reads : Reads first t a) (separates' : Separates false s')
  (reads' : Reads second t' b) (blanks : Blanks ws)

include separates reads separates' reads' blanks

theorem pairRest_separated (rest : List Char) :
    pairRest first second (s ++ (t ++ (s' ++ (t' ++ (ws ++ ']' :: rest))))) =
      .ok ((a, b), rest) := by
  have ends : Delimited (ws ++ ']' :: rest) :=
    delimited_append blanks (delimited_cons (by decide) rest)
  have front := firstOf_separated separates reads (separates'.delimited (t' ++ (ws ++ ']' :: rest)))
  have back := nextOf_separated separates' reads' ends
  have close := closeList_eq_ok_iff.2 (skipBlanks_to (c := ']') blanks rfl rest)
  exact pairRest_eq_ok_iff.2 ⟨_, _, front, back, close⟩

theorem reads_pair :
    Reads (pair (some (first, second))) ('[' :: (s ++ (t ++ (s' ++ (t' ++ (ws ++ [']']))))))
      (a, b) := by
  refine ⟨⟨_, _, rfl, rfl, by decide⟩, fun {_ rest} blanks' _ => ?_⟩
  have inner := pairRest_separated separates reads separates' reads' blanks rest
  simp only [List.cons_append, List.append_assoc, List.nil_append]
  exact pair_eq_ok_iff.2 ⟨first, second, _, rfl, skipBlanks_to blanks' rfl _, inner⟩

end

/-! ## Records -/

/-- What stands before the value of a member: a separator, the name between quotes and a colon. -/
inductive Label (first : Bool) (name : String) : List Char → Prop where
  | intro {sep t ws ws' : List Char} (separates : Separates first sep)
      (spelled : Spelled t name.toList) (blanks : Blanks ws) (blanks' : Blanks ws') :
      Label first name (sep ++ '"' :: (t ++ '"' :: (ws ++ ':' :: ws')))

/-- The text of the members of a record and the closing brace, when a name and a body may have been
found before. -/
inductive Members (key : String) (body : Reader β) :
    (first : Bool) → Option String → Option β → List Char → String × β → Prop where
  | close {first : Bool} {name : String} {b : β} {ws : List Char} (blanks : Blanks ws) :
      Members key body first (some name) (some b) (ws ++ ['}']) (name, b)
  | name {first : Bool} {b? : Option β} {label t ts : List Char} {name : String} {p : String × β}
      (labels : Label first "name" label) (reads : Reads text t name)
      (more : Members key body false (some name) b? ts p) :
      Members key body first none b? (label ++ (t ++ ts)) p
  | body {first : Bool} {name? : Option String} {label t ts : List Char} {b : β} {p : String × β}
      (labels : Label first key label) (reads : Reads body t b)
      (more : Members key body false name? (some b) ts p) :
      Members key body first name? none (label ++ (t ++ ts)) p
  | other {first : Bool} {name? : Option String} {b? : Option β} {found : String}
      {label t ts : List Char} {p : String × β} (labels : Label first found label)
      (unknown : found ≠ "name" ∧ found ≠ key) (passed : PassedOver t)
      (more : Members key body false name? b? ts p) :
      Members key body first name? b? (label ++ (t ++ ts)) p

section

variable {first : Bool} {name : String} {label rest : List Char}

theorem Separates.nextMember {sep : List Char} (h : Separates first sep) (cs : List Char) :
    nextMember first (sep ++ '"' :: cs) = .ok (some (), cs) := by
  rw [nextMember_eq_some_iff]
  cases h with
  | first before => exact skipBlanks_to before rfl _
  | next before before' =>
    rw [List.append_assoc]
    exact ⟨_, skipBlanks_to (c := ',') before rfl _, skipBlanks_to before' rfl _⟩

/-- Behind a label stand the blanks before the value. -/
theorem Label.read (h : Label first name label) (rest : List Char) :
    ∃ inner behind ws, nextMember first (label ++ rest) = .ok (some (), inner) ∧
      stringBody inner = .ok (name, behind) ∧ Blanks ws ∧ skipColon behind = .ok (ws ++ rest) := by
  obtain @⟨sep, t, ws, ws', separates, spelled, blanks, blanks'⟩ := h
  refine ⟨t ++ '"' :: (ws ++ ':' :: (ws' ++ rest)), ws ++ ':' :: (ws' ++ rest), ws', ?_,
    spelled.stringBody _, blanks', skipColon_append blanks _⟩
  simp only [List.append_assoc, List.cons_append]
  exact separates.nextMember _

/-- A bound with room for a member has room for those behind it. -/
theorem Label.room {t ts bound : List Char} (h : Label first name label)
    (room : (label ++ (t ++ ts)).length ≤ bound.length) :
    ∃ x bound', bound = x :: bound' ∧ ts.length ≤ bound'.length := by
  have some' : 0 < label.length := by
    cases h
    simp
  simp only [List.length_append] at room
  obtain ⟨x, bound, rfl⟩ := List.exists_cons_of_length_pos (l := bound) (by omega)
  rw [List.length_cons] at room
  exact ⟨x, bound, rfl, by omega⟩

theorem Label.delimited (h : Label false name label) (cs : List Char) :
    Delimited (label ++ cs) := by
  obtain @⟨sep, t, ws, ws', separates, -, -, -⟩ := h
  rw [List.append_assoc]
  exact separates.delimited _

end

section

variable {key : String} {body : Reader β} {first : Bool} {name? : Option String} {b? : Option β}
  {ts : List Char} {p : String × β}

theorem Members.delimited (h : Members key body false name? b? ts p) (rest : List Char) :
    Delimited (ts ++ rest) := by
  cases h with
  | close blanks =>
    rw [List.append_assoc]
    exact delimited_append blanks (delimited_cons (by decide) _)
  | name labels | body labels | other labels =>
    rw [List.append_assoc]
    exact labels.delimited _

theorem Members.run (distinct : key ≠ "name") (h : Members key body first name? b? ts p)
    {bound : List Char} (room : ts.length ≤ bound.length) (rest : List Char) :
    members key body bound first name? b? (ts ++ rest) = .ok (p, rest) := by
  induction h generalizing bound with
  | close blanks =>
    obtain ⟨x, bound, rfl⟩ := List.exists_cons_of_length_pos (l := bound) (by simp at room; omega)
    have closed := skipBlanks_to (c := '}') blanks rfl rest
    rw [List.append_assoc]
    exact members_cons_eq_ok_iff.2 (.inl ⟨nextMember_eq_none_iff.2 closed, rfl, rfl⟩)
  | name labels reads more ih =>
    obtain ⟨x, bound, rfl, left⟩ := labels.room room
    obtain ⟨inner, behind, ws, opened, named, blanks, colon⟩ := labels.read (_ ++ (_ ++ rest))
    rw [List.append_assoc, List.append_assoc]
    have value := reads.run blanks (more.delimited rest)
    exact members_cons_eq_ok_iff.2 (.inr ⟨inner, _, behind, _, opened, named, colon,
      .inl ⟨rfl, rfl, _, _, value, ih left⟩⟩)
  | body labels reads more ih =>
    obtain ⟨x, bound, rfl, left⟩ := labels.room room
    obtain ⟨inner, behind, ws, opened, named, blanks, colon⟩ := labels.read (_ ++ (_ ++ rest))
    rw [List.append_assoc, List.append_assoc]
    have value := reads.run blanks (more.delimited rest)
    exact members_cons_eq_ok_iff.2 (.inr ⟨inner, _, behind, _, opened, named, colon,
      .inr (.inl ⟨distinct, rfl, rfl, _, _, value, ih left⟩)⟩)
  | other labels unknown passed more ih =>
    obtain ⟨x, bound, rfl, left⟩ := labels.room room
    obtain ⟨inner, behind, ws, opened, named, blanks, colon⟩ := labels.read (_ ++ (_ ++ rest))
    rw [List.append_assoc, List.append_assoc]
    have value := passed blanks (more.delimited rest)
    exact members_cons_eq_ok_iff.2 (.inr ⟨inner, _, behind, _, opened, named, colon,
      .inr (.inr ⟨unknown.1, unknown.2, _, value, ih left⟩)⟩)

theorem Members.record (distinct : key ≠ "name") (h : Members key body true none none ts p) :
    Reads (record key (some body)) ('{' :: ts) p := by
  refine ⟨⟨_, _, rfl, rfl, by decide⟩, fun {ws rest} blanks _ => ?_⟩
  have opened := skipBlanks_to (c := '{') blanks rfl (ts ++ rest)
  refine record_eq_ok_iff.2 ⟨body, _, rfl, .inl ⟨opened, h.run distinct ?_ rest⟩⟩
  simp only [List.length_cons, List.length_append]
  omega

end

/-- A record as a list of the name and the body. -/
theorem reads_record_list {body : Reader β} {s t s' t' ws : List Char} {name : String} {b : β}
    (key : String) (separates : Separates true s) (reads : Reads text t name)
    (separates' : Separates false s') (reads' : Reads body t' b) (blanks : Blanks ws) :
    Reads (record key (some body)) ('[' :: (s ++ (t ++ (s' ++ (t' ++ (ws ++ [']']))))))
      (name, b) := by
  refine ⟨⟨_, _, rfl, rfl, by decide⟩, fun {_ rest} blanks' _ => ?_⟩
  have inner := pairRest_separated separates reads separates' reads' blanks rest
  simp only [List.cons_append, List.append_assoc, List.nil_append]
  exact record_eq_ok_iff.2 ⟨body, _, rfl, .inr ⟨skipBlanks_to blanks' rfl _, inner⟩⟩

/-! ## Choices -/

section

variable {variants : String → Option (Variant α)} {name : String} {t : List Char} {a : α}

/-- A variant without a value, by its name. -/
theorem Spelled.reads_bare (h : Spelled t name.toList) (known : variants name = some (.bare a))
    (nested : Bool) : Reads (choice variants nested) ('"' :: (t ++ ['"'])) a := by
  refine ⟨⟨_, _, rfl, rfl, by decide⟩, fun {ws rest} blanks _ => ?_⟩
  simp only [List.cons_append, List.append_assoc, List.nil_append]
  exact choice_eq_ok_iff.2 (.inl ⟨_, name, skipBlanks_to blanks rfl _, h.stringBody rest, known⟩)

/-- A variant as an object whose only member holds its value. -/
theorem Label.reads_variant {variant : Variant α} {label ws : List Char}
    (labels : Label true name label) (known : variants name = some variant)
    (reads : Reads variant.payload t a) (blanks : Blanks ws) :
    Reads (choice variants true) ('{' :: (label ++ (t ++ (ws ++ ['}'])))) a := by
  refine ⟨⟨_, _, rfl, rfl, by decide⟩, fun {_ rest} blanks' _ => ?_⟩
  have ends : Delimited (ws ++ '}' :: rest) :=
    delimited_append blanks (delimited_cons (by decide) rest)
  obtain ⟨inner, behind, ws', opened, named, before, colon⟩ :=
    labels.read (t ++ (ws ++ '}' :: rest))
  have member := memberName_eq_ok_iff.2 ⟨inner, nextMember_eq_some_iff.1 opened, named⟩
  have value := reads.run before ends
  have close := closeObject_eq_ok_iff.2 (skipBlanks_to (c := '}') blanks rfl rest)
  simp only [List.cons_append, List.append_assoc, List.nil_append]
  exact choice_eq_ok_iff.2 (.inr ⟨rfl, _, name, behind, variant, _, _,
    skipBlanks_to blanks' rfl _, member, known, colon, value, close⟩)

end

/-! ## Whole texts -/

theorem Reads.parse {r : Reader α} {ws cs ws' : List Char} {a : α} (reads : Reads r cs a)
    (blanks : Blanks ws) (blanks' : Blanks ws') :
    parse r (String.ofList (ws ++ (cs ++ ws'))) = .ok a := by
  refine parse_eq_ok_iff.2 ⟨ws', ?_, skipBlanks_of_blanks blanks'⟩
  rw [String.toList_ofList]
  exact reads.run blanks blanks'.delimited

end TeImage.Json
