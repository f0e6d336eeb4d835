/-
Readers and trees. A reader may take a value from every text of a tree alike (`ReadFrom`), and it
may take from texts of trees nothing else (`ReadsOnly`): both hold of the readers of lists, records
and choices as soon as they hold of the readers of their parts. A record is an object with each of
its two members once, in any order and among unknown ones, or a list of the two (`Tree.Record`).
-/
import Mathlib.Tactic
import TeImage.Proofs.Json.Tree

namespace TeImage.Json

variable {α β : Type}

/-- `r` reads `a` from every text of the tree. -/
def ReadFrom (r : Reader α) (j : Tree) (a : α) : Prop := ∀ ⦃t : List Char⦄, j.Text t → Reads r t a

/-- From a text of a tree `r` reads only what the tree spells, and it reads to the end. -/
def ReadsOnly (r : Reader α) (spells : Tree → α → Prop) : Prop :=
  ∀ ⦃j : Tree⦄ ⦃t ws rest rest' : List Char⦄ ⦃a : α⦄, j.Text t → Blanks ws → Delimited rest →
    r (ws ++ (t ++ rest)) = .ok (a, rest') → spells j a ∧ rest' = rest

/-! ## Texts by their first character -/

namespace Tree

variable {j : Tree} {t ws : List Char}

theorem Text.found (h : Text j t) (blanks : Blanks ws) (rest : List Char) :
    ∃ c t', t = c :: t' ∧ c ≠ ']' ∧ c ≠ '\x7d' ∧ c ≠ ',' ∧
      skipBlanks (ws ++ (t ++ rest)) = c :: (t' ++ rest) := by
  obtain ⟨c, t', rfl, shown, square, curly, comma⟩ := h.opens
  exact ⟨c, t', rfl, square, curly, comma, skipBlanks_to blanks shown _⟩

theorem Text.of_digit {d : Char} (h : Text j (d :: t)) (digit : d.isDigit = true) :
    j = .number (d :: t) ∧ NumberText (d :: t) := by
  generalize same : d :: t = cs at h
  cases h with
  | number digits => exact ⟨rfl, digits⟩
  | _ =>
    cases same
    cases digit

theorem Text.of_letter (h : Text j ('n' :: t)) : j = .null ∧ t = ['u', 'l', 'l'] := by
  generalize same : 'n' :: t = cs at h
  cases h with
  | null => exact ⟨rfl, (List.cons.inj same).2⟩
  | number digits => exact absurd (same ▸ digits) (not_numberText_cons rfl)
  | _ => simp at same

theorem Text.of_quote (h : Text j ('"' :: t)) :
    ∃ s? inner, j = .string s? ∧ t = inner ++ ['"'] ∧ Quotes inner s? := by
  generalize same : '"' :: t = cs at h
  cases h with
  | string quotes => exact ⟨_, _, rfl, (List.cons.inj same).2, quotes⟩
  | number digits => exact absurd (same ▸ digits) (not_numberText_cons rfl)
  | _ => simp at same

theorem Text.of_square (h : Text j ('[' :: t)) : ∃ items, j = .array items ∧
    ItemsText true items t := by
  generalize same : '[' :: t = cs at h
  cases h with
  | array inner => exact ⟨_, rfl, (List.cons.inj same).2 ▸ inner⟩
  | number digits => exact absurd (same ▸ digits) (not_numberText_cons rfl)
  | _ => simp at same

theorem Text.of_curly (h : Text j ('\x7b' :: t)) : ∃ members, j = .object members ∧
    MembersText true members t := by
  generalize same : '\x7b' :: t = cs at h
  cases h with
  | object inner => exact ⟨_, rfl, (List.cons.inj same).2 ▸ inner⟩
  | number digits => exact absurd (same ▸ digits) (not_numberText_cons rfl)
  | _ => simp at same

end Tree

/-! ## Values without parts -/

theorem ReadsOnly.mapped {r : Reader α} {spells : Tree → α → Prop} (h : ReadsOnly r spells)
    (f : α → β) : ReadsOnly (mapped f r) fun j b => ∃ a, spells j a ∧ f a = b := by
  intro j t ws rest rest' b text blanks ends read
  obtain ⟨a, inner, same⟩ := mapped_eq_ok_iff.1 read
  obtain ⟨spelled, left⟩ := h text blanks ends inner
  exact ⟨⟨a, spelled, same⟩, left⟩

theorem ReadsOnly.mono {r : Reader α} {spells spells' : Tree → α → Prop} (h : ReadsOnly r spells)
    (weaker : ∀ j a, spells j a → spells' j a) : ReadsOnly r spells' := by
  intro j t ws rest rest' a text blanks ends read
  obtain ⟨spelled, left⟩ := h text blanks ends read
  exact ⟨weaker j a spelled, left⟩

theorem ReadFrom.mapped {r : Reader α} {j : Tree} {a : α} (h : ReadFrom r j a) (f : α → β) :
    ReadFrom (mapped f r) j (f a) :=
  fun _ text => (h text).mapped f

theorem readsOnly_text : ReadsOnly text fun j s => j = .string (some s) := by
  intro j t ws rest rest' s text blanks ends read
  obtain ⟨_, found, body⟩ := text_eq_ok_iff.1 read
  obtain ⟨_, _, rfl, -, -, -, found'⟩ := text.found blanks rest
  cases found.symm.trans found'
  obtain ⟨s?, inner, rfl, rfl, quotes⟩ := text.of_quote
  rw [List.append_assoc] at body
  obtain ⟨rfl, left⟩ := quotes.stringBody_eq_ok_iff.1 body
  exact ⟨rfl, left⟩

theorem readFrom_text (s : String) : ReadFrom text (.string (some s)) s := by
  intro t text
  cases text with
  | string quotes => exact ((quotes.spelled s).1 rfl).reads_text

theorem readsOnly_count :
    ReadsOnly count fun j n => j = .number (Nat.toDigits 10 n.toNat) := by
  intro j t ws rest rest' n text blanks ends read
  obtain ⟨c, _, number, found, digit, numeral, word⟩ := count_eq_ok_iff.1 read
  obtain ⟨_, t', rfl, -, -, -, found'⟩ := text.found blanks rest
  cases found.symm.trans found'
  obtain ⟨rfl, digits⟩ := text.of_digit digit
  obtain ⟨same, left⟩ := digits.eq_toDigits ends numeral word
  exact ⟨by rw [same], left⟩

theorem readFrom_count (n : UInt64) : ReadFrom count (.number (Nat.toDigits 10 n.toNat)) n := by
  intro t text
  have read := reads_count n.toNat_lt
  rw [UInt64.ofNat_toNat] at read
  generalize same : Nat.toDigits 10 n.toNat = ds at text read
  cases text with
  | number digits => exact read
  | negative digits =>
    obtain ⟨d, ds, digits, digit⟩ := toDigits_eq_cons n.toNat
    cases digits.symm.trans same
    cases digit

theorem readsOnly_nullWord : ReadsOnly nullWord fun j _ => j = .null := by
  intro j t ws rest rest' _ text blanks ends read
  obtain ⟨_, found, word⟩ := nullWord_eq_ok_iff.1 read
  obtain ⟨_, _, rfl, -, -, -, found'⟩ := text.found blanks rest
  cases found.symm.trans found'
  obtain ⟨rfl, rfl⟩ := text.of_letter
  cases word
  exact ⟨rfl, rfl⟩

theorem readFrom_nullWord : ReadFrom nullWord .null () := by
  intro t text
  cases text with
  | null => exact reads_nullWord

/-! ## Lists -/

section

variable {element : Reader α} {spells : Tree → α → Prop} {sep t rest rest' : List Char} {j : Tree}
  {a : α}

theorem firstOf_text (h : ReadsOnly element spells) (separates : Separates true sep)
    (text : j.Text t) (ends : Delimited rest)
    (read : firstOf element (sep ++ (t ++ rest)) = .ok (a, rest')) : spells j a ∧ rest' = rest := by
  obtain ⟨c, _, found, -, read⟩ := firstOf_eq_ok_iff.1 read
  cases separates with
  | first blanks =>
    obtain ⟨_, _, rfl, -, -, -, found'⟩ := text.found blanks rest
    cases found.symm.trans found'
    exact h text blanks_nil ends read

theorem nextOf_text (h : ReadsOnly element spells) (separates : Separates false sep)
    (text : j.Text t) (ends : Delimited rest)
    (read : nextOf element (sep ++ (t ++ rest)) = .ok (a, rest')) : spells j a ∧ rest' = rest := by
  obtain ⟨_, d, _, comma, found, -, read⟩ := nextOf_eq_ok_iff.1 read
  cases separates with
  | next blanks blanks' =>
    rw [List.append_assoc, List.cons_append, skipBlanks_to blanks rfl] at comma
    cases comma
    obtain ⟨_, _, rfl, -, -, -, found'⟩ := text.found blanks' rest
    cases found.symm.trans found'
    exact h text blanks_nil ends read

/-- No list closes where an element or a comma stands. -/
theorem not_close_of_separates {first : Bool} (separates : Separates first sep) (text : j.Text t) :
    skipBlanks (sep ++ (t ++ rest)) ≠ ']' :: rest' := by
  intro closed
  cases separates with
  | first blanks =>
    obtain ⟨_, _, rfl, other, -, -, found⟩ := text.found blanks rest
    cases found.symm.trans closed
    exact other rfl
  | next blanks =>
    rw [List.append_assoc, List.cons_append, skipBlanks_to blanks rfl] at closed
    cases closed

/-- Where a list closes there is neither an element nor a comma. -/
theorem not_nextOf_of_close {cs : List Char} (h : skipBlanks cs = ']' :: rest) (first : Bool) :
    (if first then firstOf element cs else nextOf element cs) ≠ .ok (a, rest') := by
  intro read
  cases first with
  | true =>
    obtain ⟨c, _, found, other, -⟩ := firstOf_eq_ok_iff.1 read
    cases h.symm.trans found
    exact other rfl
  | false =>
    obtain ⟨_, _, _, found, -⟩ := nextOf_eq_ok_iff.1 read
    cases h.symm.trans found

theorem elements_text (h : ReadsOnly element spells) {items : List Tree} {bound ts : List Char}
    {first : Bool} {as : List α} (inner : Tree.ItemsText first items ts)
    (read : elements element bound first (ts ++ rest) = .ok (as, rest')) :
    List.Forall₂ spells items as ∧ rest' = rest := by
  induction bound generalizing first items ts as with
  | nil => simp [elements] at read
  | cons x bound ih =>
    cases inner with
    | close blanks =>
      have closed := skipBlanks_close blanks .square rest
      rcases elements_cons_eq_ok_iff.1 read with ⟨rfl, found⟩ | ⟨a, as, mid, -, head, -⟩
      · cases closed.symm.trans found
        exact ⟨.nil, rfl⟩
      · exact absurd head (not_nextOf_of_close closed first)
    | @cons _ sep t ts item items separates text more =>
      rw [List.append_assoc, List.append_assoc] at read
      have ends := more.delimited rest
      rcases elements_cons_eq_ok_iff.1 read with ⟨-, found⟩ | ⟨a, as, mid, rfl, head, others⟩
      · exact absurd found (not_close_of_separates separates text)
      · have step : spells item a ∧ mid = ts ++ rest := by
          cases first with
          | true => exact firstOf_text h separates text ends head
          | false => exact nextOf_text h separates text ends head
        obtain ⟨spelled, rfl⟩ := step
        obtain ⟨all, left⟩ := ih more others
        exact ⟨.cons spelled all, left⟩

/-- What lists of elements spell. -/
def Tree.Items (spells : Tree → α → Prop) (j : Tree) (as : List α) : Prop :=
  ∃ items, j = .array items ∧ List.Forall₂ spells items as

theorem readsOnly_list {element? : Option (Reader α)} (h : ∀ r ∈ element?, ReadsOnly r spells) :
    ReadsOnly (list element?) (Tree.Items spells) := by
  intro j t ws rest rest' as text blanks ends read
  obtain ⟨element, _, rfl, found, inner⟩ := list_eq_ok_iff.1 read
  obtain ⟨_, _, rfl, -, -, -, found'⟩ := text.found blanks rest
  cases found.symm.trans found'
  obtain ⟨items, rfl, itemsText⟩ := text.of_square
  obtain ⟨all, left⟩ := elements_text (h element rfl) itemsText inner
  exact ⟨⟨items, rfl, all⟩, left⟩

theorem elements_of_text {items : List Tree} {as : List α} {ts : List Char} {first : Bool}
    (h : List.Forall₂ (ReadFrom element) items as) (text : Tree.ItemsText first items ts) :
    Elements element first ts as := by
  induction h generalizing first ts with
  | nil =>
    cases text with
    | close blanks => exact .close blanks
  | cons head _ ih =>
    cases text with
    | cons separates text more => exact .cons separates (head text) (ih more)

theorem readFrom_list {items : List Tree} {as : List α}
    (h : List.Forall₂ (ReadFrom element) items as) :
    ReadFrom (list (some element)) (.array items) as := by
  intro t text
  cases text with
  | array inner => exact (elements_of_text h inner).list

end

/-! ## Lists of two elements -/

section

variable {first : Reader α} {second : Reader β} {spells : Tree → α → Prop}
  {spells' : Tree → β → Prop} {j j' : Tree} {a : α} {b : β}

/-- What lists of two elements spell. -/
def Tree.Pair (spells : Tree → α → Prop) (spells' : Tree → β → Prop) (j : Tree) (p : α × β) :
    Prop :=
  ∃ first second, j = .array [first, second] ∧ spells first p.1 ∧ spells' second p.2

theorem pairRest_text (h : ReadsOnly first spells) (h' : ReadsOnly second spells')
    {items : List Tree} {ts rest rest' : List Char} (inner : Tree.ItemsText true items ts)
    (read : pairRest first second (ts ++ rest) = .ok ((a, b), rest')) :
    (∃ j j', items = [j, j'] ∧ spells j a ∧ spells' j' b) ∧ rest' = rest := by
  obtain ⟨mid, mid', front, back, closed⟩ := pairRest_eq_ok_iff.1 read
  cases inner with
  | close blanks =>
    exact absurd front (not_nextOf_of_close (skipBlanks_close blanks .square rest) true)
  | cons separates text more =>
    rw [List.append_assoc, List.append_assoc] at front
    obtain ⟨spelled, rfl⟩ := firstOf_text h separates text (more.delimited rest) front
    cases more with
    | close blanks =>
      exact absurd back (not_nextOf_of_close (skipBlanks_close blanks .square rest) false)
    | cons separates' text' more' =>
      rw [List.append_assoc, List.append_assoc] at back
      obtain ⟨spelled', rfl⟩ := nextOf_text h' separates' text' (more'.delimited rest) back
      have closed' := closeList_eq_ok_iff.1 closed
      cases more' with
      | close blanks =>
        cases (skipBlanks_close blanks .square rest).symm.trans closed'
        exact ⟨⟨_, _, rfl, spelled, spelled'⟩, rfl⟩
      | cons separates'' text'' =>
        rw [List.append_assoc, List.append_assoc] at closed'
        exact absurd closed' (not_close_of_separates separates'' text'')

theorem readsOnly_pair {elements? : Option (Reader α × Reader β)}
    (h : ∀ p ∈ elements?, ReadsOnly p.1 spells ∧ ReadsOnly p.2 spells') :
    ReadsOnly (pair elements?) (Tree.Pair spells spells') := by
  rintro j t ws rest rest' ⟨a, b⟩ text blanks ends read
  obtain ⟨first, second, _, rfl, found, inner⟩ := pair_eq_ok_iff.1 read
  obtain ⟨only, only'⟩ := h _ rfl
  obtain ⟨_, _, rfl, -, -, -, found'⟩ := text.found blanks rest
  cases found.symm.trans found'
  obtain ⟨items, rfl, itemsText⟩ := text.of_square
  obtain ⟨⟨j, j', rfl, spelled, spelled'⟩, left⟩ := pairRest_text only only' itemsText inner
  exact ⟨⟨j, j', rfl, spelled, spelled'⟩, left⟩

theorem readFrom_pair (h : ReadFrom first j a) (h' : ReadFrom second j' b) :
    ReadFrom (pair (some (first, second))) (.array [j, j']) (a, b) := by
  intro t text
  cases text with
  | array inner =>
    obtain _ | ⟨separates, text, _ | ⟨separates', text', ⟨blanks⟩⟩⟩ := inner
    exact reads_pair separates (h text) separates' (h' text') blanks

end

/-! ## Records -/

section

variable {key : String} {body : Reader β} {spells : Tree → β → Prop} {name? : Option String}
  {b? : Option β} {ms : List (Option String × Tree)} {p : String × β}

/-- Members that are passed over: neither `"name"` nor `key`. -/
def Tree.Unknown (key : String) (m : Option String × Tree) : Prop :=
  ∃ found, m.1 = some found ∧ found ≠ "name" ∧ found ≠ key

/-- What records spell, as objects or as lists. -/
inductive Tree.Record (key : String) (spells : Tree → β → Prop) : Tree → String × β → Prop where
  | object {ms others : List (Option String × Tree)} {name : String} {j : Tree} {b : β}
      (order : ms.Perm ((some "name", .string (some name)) :: (some key, j) :: others))
      (unknown : ∀ m ∈ others, Tree.Unknown key m) (spelled : spells j b) :
      Tree.Record key spells (.object ms) (name, b)
  | list {name : String} {j : Tree} {b : β} (spelled : spells j b) :
      Tree.Record key spells (.array [.string (some name), j]) (name, b)

theorem Tree.Record.imp {γ : Type} {spells' : Tree → γ → Prop} {j : Tree} {name : String} {b : β}
    {c : γ} (h : Tree.Record key spells j (name, b))
    (weaker : ∀ part, spells part b → spells' part c) : Tree.Record key spells' j (name, c) := by
  cases h with
  | object order unknown spelled => exact .object order unknown (weaker _ spelled)
  | list spelled => exact .list (weaker _ spelled)

/-- In an object each known member stands once. -/
theorem Tree.Record.count_known (distinct : key ≠ "name")
    (h : Tree.Record key spells (.object ms) p) {known : String}
    (isKnown : known = "name" ∨ known = key) :
    (ms.map Prod.fst).count (some known) = 1 := by
  cases h with
  | @object _ others _ j b order unknown _ =>
    have none : (others.map Prod.fst).count (some known) = 0 := by
      refine List.count_eq_zero.2 fun member => ?_
      obtain ⟨m, hm, same⟩ := List.mem_map.1 member
      obtain ⟨found, named, notName, notKey⟩ := unknown m hm
      cases same.symm.trans named
      rcases isKnown with rfl | rfl
      · exact notName rfl
      · exact notKey rfl
    rw [(order.map Prod.fst).count_eq]
    rcases isKnown with rfl | rfl <;> simp [none, distinct, distinct.symm]

theorem Tree.Record.of_member (distinct : key ≠ "name") (h : Tree.Record key spells (.object ms) p)
    {j : Tree} (member : (some key, j) ∈ ms) : spells j p.2 := by
  cases h with
  | object order unknown spelled =>
    rcases List.mem_cons.1 (order.mem_iff.1 member) with same | behind
    · cases same
      exact absurd rfl distinct
    rcases List.mem_cons.1 behind with same | other
    · cases same
      exact spelled
    · obtain ⟨found, named, -, notKey⟩ := unknown _ other
      cases named
      exact absurd rfl notKey

/-- The members that are still to come when a name and a body may have been found before. It goes
through them one by one as the reader does. -/
inductive Fills (key : String) (spells : Tree → β → Prop) :
    Option String → Option β → List (Option String × Tree) → String × β → Prop where
  | close {name : String} {b : β} : Fills key spells (some name) (some b) [] (name, b)
  | name {name : String} {b? : Option β} {ms : List (Option String × Tree)} {p : String × β}
      (more : Fills key spells (some name) b? ms p) :
      Fills key spells none b? ((some "name", .string (some name)) :: ms) p
  | body {name? : Option String} {j : Tree} {b : β} {ms : List (Option String × Tree)}
      {p : String × β} (spelled : spells j b) (more : Fills key spells name? (some b) ms p) :
      Fills key spells name? none ((some key, j) :: ms) p
  | other {name? : Option String} {b? : Option β} {m : Option String × Tree}
      {ms : List (Option String × Tree)} {p : String × β} (unknown : Tree.Unknown key m)
      (more : Fills key spells name? b? ms p) : Fills key spells name? b? (m :: ms) p

theorem Fills.perm {ms' : List (Option String × Tree)} (order : ms.Perm ms')
    (h : Fills key spells name? b? ms p) : Fills key spells name? b? ms' p := by
  induction order generalizing name? b? with
  | nil => exact h
  | cons m order ih =>
    cases h with
    | name more => exact .name (ih more)
    | body spelled more => exact .body spelled (ih more)
    | other unknown more => exact .other unknown (ih more)
  | swap m m' ms =>
    -- whatever the two members are, they are found in the other order as well
    cases h with
    | name more =>
      cases more with
      | body spelled more => exact .body spelled (.name more)
      | other unknown more => exact .other unknown (.name more)
    | body spelled more =>
      cases more with
      | name more => exact .name (.body spelled more)
      | other unknown more => exact .other unknown (.body spelled more)
    | other unknown more =>
      cases more with
      | name more => exact .name (.other unknown more)
      | body spelled more => exact .body spelled (.other unknown more)
      | other unknown' more => exact .other unknown' (.other unknown more)
  | trans _ _ ih ih' => exact ih' (ih h)

theorem fills_of_unknown (unknown : ∀ m ∈ ms, Tree.Unknown key m) (name : String) (b : β) :
    Fills key spells (some name) (some b) ms (name, b) := by
  induction ms with
  | nil => exact .close
  | cons m ms ih =>
    obtain ⟨front, behind⟩ := List.forall_mem_cons.1 unknown
    exact .other front (ih behind)

/-- What is found and what is still to come make up the whole record. -/
theorem Fills.exists_order (h : Fills key spells name? b? ms p) :
    ∃ names bodies others, ms.Perm (names ++ (bodies ++ others)) ∧
      (name? = some p.1 ∧ names = [] ∨
        name? = none ∧ names = [(some "name", .string (some p.1))]) ∧
      (b? = some p.2 ∧ bodies = [] ∨
        ∃ j, b? = none ∧ bodies = [(some key, j)] ∧ spells j p.2) ∧
      ∀ m ∈ others, Tree.Unknown key m := by
  induction h with
  | close => exact ⟨[], [], [], .refl _, .inl ⟨rfl, rfl⟩, .inl ⟨rfl, rfl⟩, nofun⟩
  | name _ ih =>
    obtain ⟨_, bodies, others, order, ⟨same, rfl⟩ | ⟨none, -⟩, bodies', unknown⟩ := ih
    · cases same
      exact ⟨[_], bodies, others, order.cons _, .inr ⟨rfl, rfl⟩, bodies', unknown⟩
    · cases none
  | @body name? j b ms p spelled _ ih =>
    obtain ⟨names, _, others, order, names', ⟨same, rfl⟩ | ⟨_, none, -⟩, unknown⟩ := ih
    · cases same
      refine ⟨names, [(some key, j)], others, ?_, names', .inr ⟨j, rfl, rfl, spelled⟩, unknown⟩
      exact (order.cons _).trans List.perm_middle.symm
    · cases none
  | @other name? b? m ms p known _ ih =>
    obtain ⟨names, bodies, others, order, names', bodies', unknown⟩ := ih
    have unknown' := List.forall_mem_cons.2 ⟨known, unknown⟩
    refine ⟨names, bodies, m :: others, ?_, names', bodies', unknown'⟩
    rw [← List.append_assoc] at order ⊢
    exact (order.cons m).trans List.perm_middle.symm

theorem fills_iff {name : String} {b : β} : Fills key spells none none ms (name, b) ↔
    ∃ j others, ms.Perm ((some "name", .string (some name)) :: (some key, j) :: others) ∧
      (∀ m ∈ others, Tree.Unknown key m) ∧ spells j b := by
  constructor
  · intro h
    obtain ⟨names, bodies, others, order, names', bodies', unknown⟩ := h.exists_order
    rcases names' with ⟨same, -⟩ | ⟨-, rfl⟩
    · cases same
    rcases bodies' with ⟨same, -⟩ | ⟨j, -, rfl, spelled⟩
    · cases same
    exact ⟨j, others, order, unknown, spelled⟩
  · rintro ⟨j, others, order, unknown, spelled⟩
    have straight := Fills.name (.body spelled (fills_of_unknown unknown name b))
    exact straight.perm order.symm

/-- The name of a member is read if it has characters. -/
theorem Named.read {first : Bool} {found? : Option String} {front : List Char}
    (h : Named first found? front) (rest : List Char) :
    ∃ inner behind ws, nextMember first (front ++ rest) = .ok (some (), inner) ∧
      (∀ s cs, stringBody inner = .ok (s, cs) ↔ found? = some s ∧ cs = behind) ∧
      Blanks ws ∧ skipColon behind = .ok (ws ++ rest) := by
  obtain @⟨sep, t, ws, ws', separates, quotes, blanks, blanks'⟩ := h
  refine ⟨t ++ '"' :: (ws ++ ':' :: (ws' ++ rest)), ws ++ ':' :: (ws' ++ rest), ws', ?_,
    fun _ _ => quotes.stringBody_eq_ok_iff, blanks', skipColon_append blanks _⟩
  simp only [List.append_assoc, List.cons_append]
  exact separates.nextMember _

theorem members_text (h : ReadsOnly body spells) {bound ts rest rest' : List Char} {first : Bool}
    (inner : Tree.MembersText first ms ts)
    (read : members key body bound first name? b? (ts ++ rest) = .ok (p, rest')) :
    Fills key spells name? b? ms p ∧ rest' = rest := by
  induction bound generalizing first name? b? ms ts with
  | nil => simp [members] at read
  | cons x bound ih =>
    cases inner with
    | close blanks =>
      have closed := skipBlanks_close blanks .curly rest
      rcases members_cons_eq_ok_iff.1 read with
        ⟨opened, rfl, rfl⟩ | ⟨_, _, _, _, opened, -⟩
      · cases closed.symm.trans (nextMember_eq_none_iff.1 opened)
        exact ⟨.close, rfl⟩
      · cases opened.symm.trans (nextMember_eq_none_iff.2 closed)
    | @cons _ front t ts found? value ms named text more =>
      rw [List.append_assoc, List.append_assoc] at read
      obtain ⟨inner, behind, ws, opened', name', blanks, colon'⟩ := named.read (t ++ (ts ++ rest))
      have ends := more.delimited rest
      rcases members_cons_eq_ok_iff.1 read with
        ⟨opened, -⟩ | ⟨_, found, _, _, opened, string, colon, member⟩
      · cases opened.symm.trans opened'
      cases opened.symm.trans opened'
      obtain ⟨rfl, rfl⟩ := (name' _ _).1 string
      cases colon.symm.trans colon'
      rcases member with ⟨rfl, rfl, name, mid, read, others⟩ |
        ⟨-, rfl, rfl, b, mid, read, others⟩ | ⟨notName, notKey, mid, passed, others⟩
      · obtain ⟨rfl, rfl⟩ := readsOnly_text text blanks ends read
        obtain ⟨fills, left⟩ := ih more others
        exact ⟨.name fills, left⟩
      · obtain ⟨spelled, rfl⟩ := h text blanks ends read
        obtain ⟨fills, left⟩ := ih more others
        exact ⟨.body spelled fills, left⟩
      · cases passed.symm.trans (text.passedOver blanks ends)
        obtain ⟨fills, left⟩ := ih more others
        exact ⟨.other ⟨found, rfl, notName, notKey⟩ fills, left⟩

theorem members_of_text (h : Fills key spells name? b? ms p)
    (reads : ∀ m ∈ ms, ∀ b, spells m.2 b → ReadFrom body m.2 b) {first : Bool} {ts : List Char}
    (text : Tree.MembersText first ms ts) : Members key body first name? b? ts p := by
  induction h generalizing first ts with
  | close =>
    cases text with
    | close blanks => exact .close blanks
  | name _ ih =>
    cases text with
    | cons named text more =>
      have others := ih (fun m hm => reads m (List.mem_cons_of_mem _ hm)) more
      exact .name named.label (readFrom_text _ text) others
  | body spelled _ ih =>
    cases text with
    | cons named text more =>
      have others := ih (fun m hm => reads m (List.mem_cons_of_mem _ hm)) more
      exact .body named.label (reads _ List.mem_cons_self _ spelled text) others
  | other unknown _ ih =>
    obtain ⟨found, same, other⟩ := unknown
    cases text with
    | cons named text more =>
      cases same
      have others := ih (fun m hm => reads m (List.mem_cons_of_mem _ hm)) more
      exact .other named.label other text.passedOver others

theorem readsOnly_record {body? : Option (Reader β)} (h : ∀ r ∈ body?, ReadsOnly r spells) :
    ReadsOnly (record key body?) (Tree.Record key spells) := by
  rintro j t ws rest rest' ⟨name, b⟩ text blanks ends read
  obtain ⟨body, _, rfl, ⟨found, inner⟩ | ⟨found, inner⟩⟩ := record_eq_ok_iff.1 read
  · obtain ⟨_, _, rfl, -, -, -, found'⟩ := text.found blanks rest
    cases found.symm.trans found'
    obtain ⟨ms, rfl, membersText⟩ := text.of_curly
    obtain ⟨fills, left⟩ := members_text (h body rfl) membersText inner
    obtain ⟨j, others, order, unknown, spelled⟩ := fills_iff.1 fills
    exact ⟨.object order unknown spelled, left⟩
  · obtain ⟨_, _, rfl, -, -, -, found'⟩ := text.found blanks rest
    cases found.symm.trans found'
    obtain ⟨items, rfl, itemsText⟩ := text.of_square
    obtain ⟨⟨j, j', rfl, rfl, spelled⟩, left⟩ :=
      pairRest_text readsOnly_text (h body rfl) itemsText inner
    exact ⟨.list spelled, left⟩

theorem readFrom_record {j : Tree} (distinct : key ≠ "name") (h : Tree.Record key spells j p)
    (reads : ∀ part b, part.depth < j.depth → spells part b → ReadFrom body part b) :
    ReadFrom (record key (some body)) j p := by
  intro t text
  cases h with
  | object order unknown spelled =>
    have fills := fills_iff.2 ⟨_, _, order, unknown, spelled⟩
    cases text with
    | object inner =>
      have parts := members_of_text fills
        (fun m hm b => reads m.2 b (Tree.depth_lt_of_member hm)) inner
      exact parts.record distinct
  | @list name j b spelled =>
    cases text with
    | array inner =>
      obtain _ | ⟨separates, text, _ | ⟨separates', text', ⟨blanks⟩⟩⟩ := inner
      have part := reads j b (Tree.depth_lt_of_item (by simp)) spelled
      exact reads_record_list key separates (readFrom_text name text) separates' (part text') blanks

end

/-! ## Choices -/

section

variable {variants : String → Option (Variant α)} {name : String} {a : α}

theorem readsOnly_choice {nested : Bool} {spells : Tree → α → Prop}
    (bare : ∀ name a, variants name = some (.bare a) →
      spells (.string (some name)) a ∧ spells (.object [(some name, .null)]) a)
    (loaded : nested = true → ∀ name r, variants name = some (.loaded r) →
      ReadsOnly r fun j a => spells (.object [(some name, j)]) a) :
    ReadsOnly (choice variants nested) spells := by
  have carried {name : String} (variant : Variant α) (known : variants name = some variant)
      (open' : nested = true) :
      ReadsOnly variant.payload fun j a => spells (.object [(some name, j)]) a := by
    cases variant with
    | bare a =>
      intro j t ws rest rest' a' text blanks ends read
      have unread : Json.mapped (fun _ => a) nullWord _ = _ := read
      obtain ⟨_, null, rfl⟩ := mapped_eq_ok_iff.1 unread
      obtain ⟨rfl, left⟩ := readsOnly_nullWord text blanks ends null
      exact ⟨(bare name a known).2, left⟩
    | loaded r => exact loaded open' name r known
  intro j t ws rest rest' a text blanks ends read
  -- a name alone, or an object with the name and one value
  rcases choice_eq_ok_iff.1 read with ⟨_, name, found, string, known⟩ |
    ⟨open', _, name, behind, variant, value, mid, found, named, known, colon, payload, closed⟩
  · obtain ⟨_, _, rfl, -, -, -, found'⟩ := text.found blanks rest
    cases found.symm.trans found'
    obtain ⟨s?, inner, rfl, rfl, quotes⟩ := text.of_quote
    rw [List.append_assoc] at string
    obtain ⟨rfl, left⟩ := quotes.stringBody_eq_ok_iff.1 string
    exact ⟨(bare name a known).1, left⟩
  · obtain ⟨_, _, rfl, -, -, -, found'⟩ := text.found blanks rest
    cases found.symm.trans found'
    obtain ⟨ms, rfl, membersText⟩ := text.of_curly
    obtain ⟨_, quote, string⟩ := memberName_eq_ok_iff.1 named
    cases membersText with
    | close blanks =>
      cases (skipBlanks_close blanks .curly rest).symm.trans quote
    | @cons _ front t ts found? part ms label text' more =>
      rw [List.append_assoc, List.append_assoc] at quote
      obtain ⟨inner, behind', ws', opened, name', blanks', colon'⟩ := label.read (t ++ (ts ++ rest))
      cases (nextMember_eq_some_iff.1 opened).symm.trans quote
      obtain ⟨rfl, rfl⟩ := (name' _ _).1 string
      cases colon.symm.trans colon'
      have ends := more.delimited rest
      obtain ⟨spelled, rfl⟩ := carried variant known open' text' blanks' ends payload
      have closed' := closeObject_eq_ok_iff.1 closed
      cases more with
      | close blanks =>
        cases (skipBlanks_close blanks .curly rest).symm.trans closed'
        exact ⟨spelled, rfl⟩
      | @cons _ front' t' ts' found' part' ms' label' =>
        -- a second member
        rw [List.append_assoc, List.append_assoc] at closed'
        obtain ⟨_, _, _, opened', -⟩ := label'.read (t' ++ (ts' ++ rest))
        cases opened'.symm.trans (nextMember_eq_none_iff.2 closed')

theorem readFrom_bare (known : variants name = some (.bare a)) (nested : Bool) :
    ReadFrom (choice variants nested) (.string (some name)) a := by
  intro t text
  cases text with
  | string quotes => exact ((quotes.spelled name).1 rfl).reads_bare known nested

theorem readFrom_variant {variant : Variant α} {j : Tree} (known : variants name = some variant)
    (h : ReadFrom variant.payload j a) :
    ReadFrom (choice variants true) (.object [(some name, j)]) a := by
  intro t text
  cases text with
  | object inner =>
    obtain _ | ⟨named, text, ⟨blanks⟩⟩ := inner
    exact named.label.reads_variant known (h text) blanks

end

/-! ## Whole texts -/

/-- The tree stands in the text with nothing but blanks around it. -/
structure Tree.Document (j : Tree) (s : String) : Prop where
  split : ∃ ws t ws', s.toList = ws ++ (t ++ ws') ∧ Blanks ws ∧ j.Text t ∧ Blanks ws'

theorem Tree.document_write (j : Json) (level : Option Nat) :
    (Tree.ofJson j).Document (String.ofList (j.write level)) :=
  ⟨⟨[], _, [], by simp, blanks_nil, Tree.text_write j level, blanks_nil⟩⟩

section

variable {r : Reader α} {j : Tree} {s : String} {a : α}

theorem ReadFrom.parse (h : ReadFrom r j a) (document : j.Document s) : parse r s = .ok a := by
  obtain ⟨ws, t, ws', split, blanks, text, blanks'⟩ := document
  rw [← String.ofList_toList (s := s), split]
  exact (h text).parse blanks blanks'

theorem ReadsOnly.parse {spells : Tree → α → Prop} (h : ReadsOnly r spells)
    (document : j.Document s) (read : parse r s = .ok a) : spells j a := by
  obtain ⟨ws, t, ws', split, blanks, text, blanks'⟩ := document
  obtain ⟨rest, read, -⟩ := parse_eq_ok_iff.1 read
  rw [split] at read
  exact (h text blanks blanks'.delimited read).1

end

end TeImage.Json
