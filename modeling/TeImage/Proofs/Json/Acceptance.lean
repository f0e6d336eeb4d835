/-
What a reader goes through when it gives a value: one equivalence for each reader of lists, pairs,
records and choices, with the parts of the text it reads and what it reads there. Later modules use
these and do not unfold the readers. They show at once what all the values have in common that a
reader can give (`Gives`), by way of what the readers of their parts can give.
-/
import Mathlib.Tactic
import TeImage.Json.Structure

namespace TeImage.Json

variable {α β : Type}

theorem bind_eq_ok_iff {x : Except Fault α} {f : α → Except Fault β} {b : β} :
    x >>= f = .ok b ↔ ∃ a, x = .ok a ∧ f a = .ok b := by
  cases x <;> simp [bind, Except.bind]

theorem pure_eq_ok_iff {a b : α} : (pure a : Except Fault α) = .ok b ↔ a = b := by
  simp [pure, Except.pure]

section

variable {cs rest : List Char} {a : α} {b : β}

theorem mapped_eq_ok_iff {f : α → β} {r : Reader α} :
    mapped f r cs = .ok (b, rest) ↔ ∃ a, r cs = .ok (a, rest) ∧ f a = b := by
  simp only [mapped, bind_eq_ok_iff, pure_eq_ok_iff, Prod.mk.injEq, Prod.exists]
  constructor
  · rintro ⟨a, _, read, same, rfl⟩
    exact ⟨a, read, same⟩
  · rintro ⟨a, read, same⟩
    exact ⟨a, rest, read, same, rfl⟩

theorem text_eq_ok_iff {s : String} : text cs = .ok (s, rest) ↔
    ∃ t, skipBlanks cs = '"' :: t ∧ stringBody t = .ok (s, rest) := by
  unfold text
  cases found : skipBlanks cs with
  | nil => simp
  | cons c t => by_cases quote : c = '"' <;> simp [quote]

theorem count_eq_ok_iff {n : UInt64} : count cs = .ok (n, rest) ↔
    ∃ c t found, skipBlanks cs = c :: t ∧ c.isDigit = true ∧
      numeral false (c :: t) = .ok (found, rest) ∧ found.word? = some n := by
  unfold count
  cases behind : skipBlanks cs with
  | nil => simp
  | cons c t =>
    by_cases digit : c.isDigit = true
    · simp only [digit, if_true, bind_eq_ok_iff, Prod.exists]
      constructor
      · rintro ⟨found, mid, read, h⟩
        cases word : found.word? with
        | none => simp [word] at h
        | some value =>
          simp only [word, pure_eq_ok_iff, Prod.mk.injEq] at h
          obtain ⟨rfl, rfl⟩ := h
          exact ⟨c, t, found, rfl, digit, read, word⟩
      · rintro ⟨_, _, found, same, -, read, word⟩
        cases same
        exact ⟨found, rest, read, by simp [word, pure_eq_ok_iff]⟩
    · simp [digit]

theorem nullWord_eq_ok_iff : nullWord cs = .ok ((), rest) ↔
    ∃ t, skipBlanks cs = 'n' :: t ∧ skipWord ['u', 'l', 'l'] t = .ok rest := by
  unfold nullWord
  cases found : skipBlanks cs with
  | nil => simp
  | cons c t =>
    by_cases letter : c = 'n'
    · subst letter
      cases word : skipWord ['u', 'l', 'l'] t <;> simp [word, bind, Except.bind, pure, Except.pure]
    · simp [letter]

/-! ## Lists -/

theorem firstOf_eq_ok_iff {element : Reader α} : firstOf element cs = .ok (a, rest) ↔
    ∃ c t, skipBlanks cs = c :: t ∧ c ≠ ']' ∧ element (c :: t) = .ok (a, rest) := by
  unfold firstOf
  cases found : skipBlanks cs with
  | nil => simp
  | cons c t => by_cases closing : c = ']' <;> simp [closing]

theorem nextOf_eq_ok_iff {element : Reader α} : nextOf element cs = .ok (a, rest) ↔
    ∃ t d u, skipBlanks cs = ',' :: t ∧ skipBlanks t = d :: u ∧ d ≠ ']' ∧
      element (d :: u) = .ok (a, rest) := by
  unfold nextOf
  cases found : skipBlanks cs with
  | nil => simp
  | cons c t =>
    by_cases comma : c = ','
    · subst comma
      cases behind : skipBlanks t with
      | nil => simp [behind]
      | cons d u => by_cases closing : d = ']' <;> simp [behind, closing]
    · by_cases closing : c = ']' <;> simp [comma, closing]

theorem elements_cons_eq_ok_iff {element : Reader α} {x : Char} {bound : List Char} {first : Bool}
    {as : List α} : elements element (x :: bound) first cs = .ok (as, rest) ↔
      (as = [] ∧ skipBlanks cs = ']' :: rest) ∨
      ∃ a as' mid, as = a :: as' ∧
        (if first then firstOf element cs else nextOf element cs) = .ok (a, mid) ∧
        elements element bound false mid = .ok (as', rest) := by
  have more (t : List Char) : elements.more element bound t = .ok (as, rest) ↔ ∃ a as' mid,
      as = a :: as' ∧ element t = .ok (a, mid) ∧
        elements element bound false mid = .ok (as', rest) := by
    simp only [elements.more, bind_eq_ok_iff, pure_eq_ok_iff, Prod.exists, Prod.mk.injEq]
    constructor
    · rintro ⟨a, mid, read, as', _, others, rfl, rfl⟩
      exact ⟨a, as', mid, rfl, read, others⟩
    · rintro ⟨a, as', mid, rfl, read, others⟩
      exact ⟨a, mid, read, as', rest, others, rfl, rfl⟩
  rw [elements.eq_2]
  cases found : skipBlanks cs with
  | nil => cases first <;> simp [firstOf, nextOf, found]
  | cons c t =>
    by_cases closing : c = ']'
    · subst closing
      cases first <;> simp [firstOf, nextOf, found, and_comm, eq_comm]
    cases first with
    | true => simp [closing, more, firstOf, found]
    | false =>
      by_cases comma : c = ','
      · subst comma
        cases behind : skipBlanks t with
        | nil => simp [nextOf, found, behind]
        | cons d u => by_cases closing' : d = ']' <;> simp [nextOf, found, behind, closing', more]
      · simp [closing, comma, nextOf, found]

theorem list_eq_ok_iff {element? : Option (Reader α)} {as : List α} :
    list element? cs = .ok (as, rest) ↔ ∃ element t, element? = some element ∧
      skipBlanks cs = '[' :: t ∧ elements element ('[' :: t) true t = .ok (as, rest) := by
  unfold list
  cases found : skipBlanks cs with
  | nil => simp
  | cons c t =>
    by_cases opening : c = '['
    · subst opening
      cases element? <;> simp
    · simp [opening]

theorem closeList_eq_ok_iff : closeList cs = .ok rest ↔ skipBlanks cs = ']' :: rest := by
  unfold closeList
  cases found : skipBlanks cs with
  | nil => simp
  | cons c t => by_cases closing : c = ']' <;> simp [closing]

theorem pairRest_eq_ok_iff {first : Reader α} {second : Reader β} :
    pairRest first second cs = .ok ((a, b), rest) ↔ ∃ mid mid', firstOf first cs = .ok (a, mid) ∧
      nextOf second mid = .ok (b, mid') ∧ closeList mid' = .ok rest := by
  simp only [pairRest, bind_eq_ok_iff, pure_eq_ok_iff, Prod.exists, Prod.mk.injEq]
  constructor
  · rintro ⟨_, mid, first', _, mid', second', _, closed, ⟨rfl, rfl⟩, rfl⟩
    exact ⟨mid, mid', first', second', closed⟩
  · rintro ⟨mid, mid', first', second', closed⟩
    exact ⟨a, mid, first', b, mid', second', rest, closed, ⟨rfl, rfl⟩, rfl⟩

theorem pair_eq_ok_iff {elements? : Option (Reader α × Reader β)} :
    pair elements? cs = .ok ((a, b), rest) ↔ ∃ first second t, elements? = some (first, second) ∧
      skipBlanks cs = '[' :: t ∧ pairRest first second t = .ok ((a, b), rest) := by
  unfold pair
  cases found : skipBlanks cs with
  | nil => simp
  | cons c t =>
    by_cases opening : c = '['
    · subst opening
      rcases elements? with _ | ⟨first, second⟩ <;> simp
    · simp [opening]

/-! ## Records -/

theorem nextMember_eq_none_iff {first : Bool} :
    nextMember first cs = .ok (none, rest) ↔ skipBlanks cs = '}' :: rest := by
  unfold nextMember
  cases found : skipBlanks cs with
  | nil => simp
  | cons c t =>
    by_cases closing : c = '}'
    · simp [closing]
    cases first with
    | true => by_cases quote : c = '"' <;> simp [closing, quote]
    | false =>
      by_cases comma : c = ','
      · subst comma
        cases behind : skipBlanks t with
        | nil => simp [behind]
        | cons d u => by_cases quote : d = '"' <;> simp [behind, quote]
      · simp [closing, comma]

theorem nextMember_eq_some_iff {first : Bool} : nextMember first cs = .ok (some (), rest) ↔
    if first then skipBlanks cs = '"' :: rest
    else ∃ t, skipBlanks cs = ',' :: t ∧ skipBlanks t = '"' :: rest := by
  unfold nextMember
  cases found : skipBlanks cs with
  | nil => simp
  | cons c t =>
    cases first with
    | true =>
      by_cases closing : c = '}'
      · simp [closing]
      · by_cases quote : c = '"' <;> simp [closing, quote]
    | false =>
      by_cases comma : c = ','
      · subst comma
        cases behind : skipBlanks t with
        | nil => simp [behind]
        | cons d u => by_cases quote : d = '"' <;> simp [behind, quote]
      · by_cases closing : c = '}' <;> simp [closing, comma]

/-- A step through the members of a record: the end, or one more member. -/
theorem members_cons_eq_ok_iff {key : String} {body : Reader β} {x : Char} {bound : List Char}
    {first : Bool} {name? : Option String} {b? : Option β} {p : String × β} :
    members key body (x :: bound) first name? b? cs = .ok (p, rest) ↔
      (nextMember first cs = .ok (none, rest) ∧ name? = some p.1 ∧ b? = some p.2) ∨
      ∃ inner found behind value, nextMember first cs = .ok (some (), inner) ∧
        stringBody inner = .ok (found, behind) ∧ skipColon behind = .ok value ∧
        (found = "name" ∧ name? = none ∧ (∃ name mid, text value = .ok (name, mid) ∧
            members key body bound false (some name) b? mid = .ok (p, rest)) ∨
          found ≠ "name" ∧ found = key ∧ b? = none ∧ (∃ b mid, body value = .ok (b, mid) ∧
            members key body bound false name? (some b) mid = .ok (p, rest)) ∨
          found ≠ "name" ∧ found ≠ key ∧ ∃ mid, skipValue value = .ok mid ∧
            members key body bound false name? b? mid = .ok (p, rest)) := by
  rw [members.eq_2, bind_eq_ok_iff, Prod.exists]
  constructor
  · rintro ⟨_ | _, inner, opened, h⟩
    · cases name? with
      | none => cases h
      | some name => cases b? with
        | none => cases h
        | some b =>
          cases h
          exact .inl ⟨opened, rfl, rfl⟩
    · obtain ⟨⟨found, behind⟩, named, h⟩ := bind_eq_ok_iff.1 h
      refine .inr ⟨inner, found, behind, ?_⟩
      simp only at h
      split at h
      · next isName =>
        cases name? with
        | some _ => cases h
        | none =>
          obtain ⟨value, colon, h⟩ := bind_eq_ok_iff.1 h
          obtain ⟨⟨name, mid⟩, read, h⟩ := bind_eq_ok_iff.1 h
          exact ⟨value, opened, named, colon, .inl ⟨isName, rfl, name, mid, read, h⟩⟩
      split at h
      · next notName isKey =>
        cases b? with
        | some _ => cases h
        | none =>
          obtain ⟨value, colon, h⟩ := bind_eq_ok_iff.1 h
          obtain ⟨⟨b, mid⟩, read, h⟩ := bind_eq_ok_iff.1 h
          exact ⟨value, opened, named, colon, .inr (.inl ⟨notName, isKey, rfl, b, mid, read, h⟩)⟩
      · next notName notKey =>
        obtain ⟨value, colon, h⟩ := bind_eq_ok_iff.1 h
        obtain ⟨mid, passed, h⟩ := bind_eq_ok_iff.1 h
        exact ⟨value, opened, named, colon, .inr (.inr ⟨notName, notKey, mid, passed, h⟩)⟩
  · rintro (⟨opened, rfl, rfl⟩ | ⟨inner, found, behind, value, opened, named, colon, h⟩)
    · exact ⟨none, rest, opened, rfl⟩
    · refine ⟨some (), inner, opened, ?_⟩
      simp only [named, colon, bind, Except.bind]
      rcases h with ⟨rfl, rfl, name, mid, read, h⟩ | ⟨notName, rfl, rfl, b, mid, read, h⟩ |
        ⟨notName, notKey, mid, passed, h⟩
      · simp [read, h]
      · simp [notName, read, h]
      · simp [notName, notKey, passed, h]

theorem record_eq_ok_iff {key : String} {body? : Option (Reader β)} {p : String × β} :
    record key body? cs = .ok (p, rest) ↔ ∃ body t, body? = some body ∧
      (skipBlanks cs = '{' :: t ∧ members key body ('{' :: t) true none none t = .ok (p, rest) ∨
        skipBlanks cs = '[' :: t ∧ pairRest text body t = .ok (p, rest)) := by
  unfold record
  cases found : skipBlanks cs with
  | nil => simp
  | cons c t =>
    by_cases brace : c = '{'
    · subst brace
      cases body? <;> simp
    by_cases bracket : c = '['
    · subst bracket
      cases body? <;> simp
    · simp [brace, bracket]

/-! ## Choices -/

theorem memberName_eq_ok_iff {name : String} : memberName cs = .ok (name, rest) ↔
    ∃ t, skipBlanks cs = '"' :: t ∧ stringBody t = .ok (name, rest) := by
  unfold memberName
  cases found : skipBlanks cs with
  | nil => simp
  | cons c t => by_cases quote : c = '"' <;> simp [quote]

theorem closeObject_eq_ok_iff : closeObject cs = .ok rest ↔ skipBlanks cs = '}' :: rest := by
  unfold closeObject
  cases found : skipBlanks cs with
  | nil => simp
  | cons c t => by_cases closing : c = '}' <;> simp [closing]

theorem choice_eq_ok_iff {variants : String → Option (Variant α)} {nested : Bool} :
    choice variants nested cs = .ok (a, rest) ↔
      (∃ t name, skipBlanks cs = '"' :: t ∧ stringBody t = .ok (name, rest) ∧
        variants name = some (.bare a)) ∨
      (nested = true ∧ ∃ t name behind variant value mid, skipBlanks cs = '{' :: t ∧
        memberName t = .ok (name, behind) ∧ variants name = some variant ∧
        skipColon behind = .ok value ∧ variant.payload value = .ok (a, mid) ∧
        closeObject mid = .ok rest) := by
  unfold choice
  cases found : skipBlanks cs with
  | nil => simp
  | cons c t =>
    by_cases quote : c = '"'
    · subst quote
      simp only [if_true, bind_eq_ok_iff, Prod.exists]
      constructor
      · rintro ⟨name, behind, named, h⟩
        cases known : variants name with
        | none => simp [known] at h
        | some variant => cases variant with
          | loaded => simp [known] at h
          | bare a' =>
            simp only [known, pure_eq_ok_iff, Prod.mk.injEq] at h
            obtain ⟨rfl, rfl⟩ := h
            exact .inl ⟨t, name, rfl, named, known⟩
      · rintro (⟨_, name, same, named, known⟩ | ⟨-, _, _, _, _, _, _, same, -⟩)
        · cases same
          exact ⟨name, rest, named, by simp [known, pure_eq_ok_iff]⟩
        · simp at same
    by_cases brace : c = '{'
    · subst brace
      cases nested with
      | false => simp
      | true =>
        simp only [if_false, if_true, Char.reduceEq, Bool.not_true, Bool.false_eq_true,
          bind_eq_ok_iff, Prod.exists]
        constructor
        · rintro ⟨name, behind, named, h⟩
          cases known : variants name with
          | none => simp [known] at h
          | some variant =>
            simp only [known, bind_eq_ok_iff, pure_eq_ok_iff, Prod.exists, Prod.mk.injEq] at h
            obtain ⟨value, colon, _, mid, read, _, closed, rfl, rfl⟩ := h
            exact .inr ⟨trivial, t, name, behind, variant, value, mid, rfl, named, known, colon,
              read, closed⟩
        · rintro (⟨_, _, same, -⟩ |
            ⟨-, _, name, behind, variant, value, mid, same, named, known, colon, read, closed⟩)
          · simp at same
          · cases same
            refine ⟨name, behind, named, ?_⟩
            simp only [known, bind_eq_ok_iff, pure_eq_ok_iff, Prod.exists, Prod.mk.injEq]
            exact ⟨value, colon, a, mid, read, rest, closed, rfl, rfl⟩
    · simp [quote, brace]

theorem parse_eq_ok_iff {r : Reader α} {s : String} :
    parse r s = .ok a ↔ ∃ rest, r s.toList = .ok (a, rest) ∧ skipBlanks rest = [] := by
  simp only [parse, bind_eq_ok_iff, Prod.exists]
  constructor
  · rintro ⟨a', rest, read, h⟩
    cases behind : skipBlanks rest with
    | nil =>
      simp only [behind, pure_eq_ok_iff] at h
      exact ⟨rest, h ▸ read, behind⟩
    | cons c t => simp [behind] at h
  · rintro ⟨rest, read, behind⟩
    exact ⟨a, rest, read, by simp [behind, pure_eq_ok_iff]⟩

end

/-! ## What readers can give -/

/-- Every value that `r` gives has the property `P`. -/
def Gives (r : Reader α) (P : α → Prop) : Prop :=
  ∀ ⦃cs rest : List Char⦄ ⦃a : α⦄, r cs = .ok (a, rest) → P a

section

variable {P : α → Prop} {Q : β → Prop}

theorem Gives.mapped {r : Reader α} {f : α → β} (h : Gives r fun a => Q (f a)) :
    Gives (mapped f r) Q := by
  intro cs rest b read
  obtain ⟨a, inner, rfl⟩ := mapped_eq_ok_iff.1 read
  exact h inner

/-- The induction is on the bound, which every element shortens. -/
theorem gives_elements {element : Reader α} (h : Gives element P) (bound : List Char) :
    ∀ first, Gives (elements element bound first) fun as => ∀ a ∈ as, P a := by
  induction bound with
  | nil =>
    intro first cs rest as read
    simp [elements] at read
  | cons x bound ih =>
    intro first cs rest as read
    rcases elements_cons_eq_ok_iff.1 read with ⟨rfl, -⟩ | ⟨a, as, mid, rfl, head, others⟩
    · intro a ha
      cases ha
    · have front : P a := by
        cases first with
        | true =>
          obtain ⟨_, _, -, -, read⟩ := firstOf_eq_ok_iff.1 head
          exact h read
        | false =>
          obtain ⟨_, _, _, -, -, -, read⟩ := nextOf_eq_ok_iff.1 head
          exact h read
      exact List.forall_mem_cons.2 ⟨front, ih false others⟩

/-- No list is given where no bracket may be opened. -/
theorem gives_list {element? : Option (Reader α)} {Q : List α → Prop}
    (h : ∀ element ∈ element?, ∃ P, Gives element P ∧ ∀ as, (∀ a ∈ as, P a) → Q as) :
    Gives (list element?) Q := by
  intro cs rest as read
  obtain ⟨element, t, rfl, -, inner⟩ := list_eq_ok_iff.1 read
  obtain ⟨P, given, whole⟩ := h element rfl
  exact whole as (gives_elements given _ true inner)

theorem gives_pairRest {first : Reader α} {second : Reader β} (h : Gives first P)
    (h' : Gives second Q) : Gives (pairRest first second) fun p => P p.1 ∧ Q p.2 := by
  rintro cs rest ⟨a, b⟩ read
  obtain ⟨_, _, read, read', -⟩ := pairRest_eq_ok_iff.1 read
  obtain ⟨_, _, -, -, read⟩ := firstOf_eq_ok_iff.1 read
  obtain ⟨_, _, _, -, -, -, read'⟩ := nextOf_eq_ok_iff.1 read'
  exact ⟨h read, h' read'⟩

theorem gives_pair {elements? : Option (Reader α × Reader β)} {S : α × β → Prop}
    (h : ∀ p ∈ elements?, ∃ P Q, Gives p.1 P ∧ Gives p.2 Q ∧ ∀ a b, P a → Q b → S (a, b)) :
    Gives (pair elements?) S := by
  rintro cs rest ⟨a, b⟩ read
  obtain ⟨first, second, t, rfl, -, inner⟩ := pair_eq_ok_iff.1 read
  obtain ⟨P, Q, given, given', whole⟩ := h (first, second) rfl
  obtain ⟨front, back⟩ := gives_pairRest given given' inner
  exact whole a b front back

/-- Of the members of a record the body is the one that `body` gives, or was found before. -/
theorem gives_members {key : String} {body : Reader β} (h : Gives body Q) (bound : List Char) :
    ∀ (first : Bool) (name? : Option String) (b? : Option β), (∀ b ∈ b?, Q b) →
      Gives (members key body bound first name? b?) fun p => Q p.2 := by
  induction bound with
  | nil =>
    intro first name? b? _ cs rest p read
    simp [members] at read
  | cons x bound ih =>
    intro first name? b? before cs rest p read
    rcases members_cons_eq_ok_iff.1 read with
      ⟨-, -, found⟩ | ⟨inner, found, behind, value, -, -, -, member⟩
    · exact before p.2 found
    -- of the three kinds of members only the body changes what is known of the body
    rcases member with
      ⟨-, -, name, mid, -, read⟩ | ⟨-, -, -, b, mid, given, read⟩ | ⟨-, -, mid, -, read⟩
    · exact ih false _ b? before read
    · refine ih false name? (some b) ?_ read
      intro b' same
      cases same
      exact h given
    · exact ih false name? b? before read

theorem gives_record {key : String} {body? : Option (Reader β)} {S : String × β → Prop}
    (h : ∀ body ∈ body?, Gives body fun b => ∀ name, S (name, b)) : Gives (record key body?) S := by
  rintro cs rest ⟨name, b⟩ read
  obtain ⟨body, t, rfl, ⟨-, inner⟩ | ⟨-, inner⟩⟩ := record_eq_ok_iff.1 read
  · exact gives_members (h body rfl) _ true none none nofun inner name
  · have all : Gives text fun _ => True := fun _ _ _ _ => trivial
    exact (gives_pairRest all (h body rfl) inner).2 name

theorem gives_choice {variants : String → Option (Variant α)} {nested : Bool}
    (bare : ∀ name a, variants name = some (.bare a) → P a)
    (loaded : nested = true → ∀ name r, variants name = some (.loaded r) → Gives r P) :
    Gives (choice variants nested) P := by
  intro cs rest a read
  rcases choice_eq_ok_iff.1 read with
    ⟨_, name, -, -, known⟩ | ⟨open', _, name, _, variant, value, mid, -, -, known, -, payload, -⟩
  · exact bare name a known
  · cases variant with
    | bare a' =>
      unfold Variant.payload at payload
      obtain ⟨_, -, rfl⟩ := mapped_eq_ok_iff.1 payload
      exact bare name _ known
    | loaded r => exact loaded open' name r known payload

end

end TeImage.Json
