/-
Reading a text that goes on. A reader that has found the end of a value does not look behind it, so
it reads the same from a longer text and leaves what was added (`SelfEnding`). A number shows where
it ends only by what follows it, and so does a value that is passed over, which may be a number: for
these something must be left already (`Settled`). Lists, records and choices end with a bracket of
their own, whatever their parts are. So a text with one of them is cut off nowhere, but for blanks
behind it (`SelfEnding.blanks_of_parse`).
-/
import Mathlib.Data.List.TakeWhile
import Mathlib.Tactic
import TeImage.Proofs.Json.Skipping

namespace TeImage.Json

open Relation

variable {α β : Type}

/-- What `r` reads from a text it reads from every longer one. -/
def SelfEnding (r : Reader α) : Prop :=
  ∀ ⦃cs rest : List Char⦄ ⦃a : α⦄, r cs = .ok (a, rest) →
    ∀ more, r (cs ++ more) = .ok (a, rest ++ more)

/-- What `r` reads from a text it reads from every longer one, if something is left behind it. -/
def Settled (r : Reader α) : Prop :=
  ∀ ⦃cs rest : List Char⦄ ⦃a : α⦄, r cs = .ok (a, rest) → rest ≠ [] →
    ∀ more, r (cs ++ more) = .ok (a, rest ++ more)

theorem SelfEnding.settled {r : Reader α} (h : SelfEnding r) : Settled r :=
  fun _ _ _ read _ => h read

theorem SelfEnding.mapped {r : Reader α} (h : SelfEnding r) (f : α → β) :
    SelfEnding (mapped f r) := by
  intro cs rest b read more
  obtain ⟨a, inner, same⟩ := mapped_eq_ok_iff.1 read
  exact mapped_eq_ok_iff.2 ⟨a, h inner more, same⟩

/-! ## Blanks, words and strings -/

section

variable {c : Char} {cs t rest : List Char} (more : List Char)

theorem skipBlanks_extend (h : skipBlanks cs = c :: t) :
    skipBlanks (cs ++ more) = c :: (t ++ more) := by
  have found : cs.dropWhile isBlank = c :: t := h
  rw [skipBlanks, List.dropWhile_append, found]
  rfl

theorem skipWord_extend {word : List Char} (h : skipWord word cs = .ok rest) :
    skipWord word (cs ++ more) = .ok (rest ++ more) := by
  induction word generalizing cs with
  | nil =>
    cases h
    rfl
  | cons w word ih =>
    cases cs with
    | nil => cases h
    | cons c cs =>
      by_cases same : w = c
      · simp only [skipWord, List.cons_append, if_pos same] at h ⊢
        exact ih h
      · simp [skipWord, same] at h

theorem skipColon_extend (h : skipColon cs = .ok rest) :
    skipColon (cs ++ more) = .ok (rest ++ more) :=
  skipColon_eq_ok_iff.2 (skipBlanks_extend more (skipColon_eq_ok_iff.1 h))

theorem skipString_extend (h : skipString cs = .ok rest) :
    skipString (cs ++ more) = .ok (rest ++ more) := by
  obtain ⟨text, rfl, found⟩ := skipString_eq_ok_iff.1 h
  exact skipString_eq_ok_iff.2 ⟨text, by simp, found⟩

theorem skipName_extend (h : skipName cs = .ok rest) :
    skipName (cs ++ more) = .ok (rest ++ more) := by
  obtain ⟨t, behind, found, string, colon⟩ := skipName_eq_ok_iff.1 h
  exact skipName_eq_ok_iff.2 ⟨_, _, skipBlanks_extend more found, skipString_extend more string,
    skipColon_extend more colon⟩

end

theorem selfEnding_stringBody : SelfEnding stringBody := by
  intro cs rest s read more
  obtain ⟨text, rfl, spelled⟩ := stringBody_eq_ok_iff.1 read
  exact stringBody_eq_ok_iff.2 ⟨text, by simp, spelled⟩

theorem selfEnding_text : SelfEnding text := by
  intro cs rest s read more
  obtain ⟨t, found, body⟩ := text_eq_ok_iff.1 read
  exact text_eq_ok_iff.2 ⟨_, skipBlanks_extend more found, selfEnding_stringBody body more⟩

theorem selfEnding_nullWord : SelfEnding nullWord := by
  intro cs rest _ read more
  obtain ⟨t, found, word⟩ := nullWord_eq_ok_iff.1 read
  exact nullWord_eq_ok_iff.2 ⟨_, skipBlanks_extend more found, skipWord_extend more word⟩

theorem selfEnding_memberName : SelfEnding memberName := by
  intro cs rest s read more
  obtain ⟨t, found, body⟩ := memberName_eq_ok_iff.1 read
  exact memberName_eq_ok_iff.2 ⟨_, skipBlanks_extend more found, selfEnding_stringBody body more⟩

/-! ## Numbers -/

theorem ne_nil_of_suffix {cs rest : List Char} (h : rest <:+ cs) (left : rest ≠ []) : cs ≠ [] := by
  rintro rfl
  exact left (List.suffix_nil.1 h)

theorem settled_someDigits : Settled someDigits := by
  intro cs rest ds read left more
  obtain ⟨rfl, text, stop⟩ := someDigits_eq_ok_iff.1 read
  refine someDigits_eq_ok_iff.2 ⟨List.append_assoc _ _ _, text, ?_⟩
  rwa [List.head?_append_of_ne_nil _ left]

theorem settled_wholeDigits : Settled wholeDigits := by
  intro cs rest ds read left more
  obtain ⟨rfl, text, stop⟩ := wholeDigits_eq_ok_iff.1 read
  refine wholeDigits_eq_ok_iff.2 ⟨List.append_assoc _ _ _, text, ?_⟩
  rwa [List.head?_append_of_ne_nil _ left]

theorem settled_fractionDigits : Settled fractionDigits := by
  intro cs rest ds read left more
  rcases fractionDigits_eq_ok_iff.1 read with ⟨rfl, rfl, point⟩ | ⟨t, rfl, read⟩
  · refine fractionDigits_eq_ok_iff.2 (.inl ⟨rfl, rfl, ?_⟩)
    rwa [List.head?_append_of_ne_nil _ left]
  · exact fractionDigits_eq_ok_iff.2 (.inr ⟨_, rfl, settled_someDigits read left more⟩)

theorem signed_append {t : List Char} (some' : t ≠ []) (more : List Char) :
    signed (t ++ more) = ((signed t).1, (signed t).2 ++ more) := by
  obtain ⟨c, t, rfl⟩ := List.exists_cons_of_ne_nil some'
  by_cases minus : c = '-'
  · subst minus
    rfl
  by_cases plus : c = '+'
  · subst plus
    rfl
  · simp [signed, minus, plus]

theorem settled_exponentDigits : Settled exponentDigits := by
  intro cs rest found read left more
  rcases exponentDigits_eq_ok_iff.1 read with ⟨rfl, rfl, other⟩ | ⟨e, t, letter, rfl, sign, read⟩
  · refine exponentDigits_eq_ok_iff.2 (.inl ⟨rfl, rfl, ?_⟩)
    rwa [List.head?_append_of_ne_nil _ left]
  · have some' := ne_nil_of_suffix ((someDigits_suffix read).trans (signed_suffix t)) left
    refine exponentDigits_eq_ok_iff.2 (.inr ⟨e, t ++ more, letter, rfl, ?_⟩)
    rw [signed_append some']
    exact ⟨sign, settled_someDigits read left more⟩

theorem settled_parts (negative : Bool) : Settled (parts negative) := by
  intro cs rest n read left more
  obtain ⟨whole, cs', fraction, cs'', exponent, whole', fraction', exponent', rfl⟩ :=
    parts_eq_ok_iff.1 read
  have left'' := ne_nil_of_suffix (exponentDigits_suffix exponent') left
  have left' := ne_nil_of_suffix (fractionDigits_suffix fraction') left''
  refine parts_eq_ok_iff.2 ⟨_, _, _, _, _, settled_wholeDigits whole' left' more,
    settled_fractionDigits fraction' left'' more, settled_exponentDigits exponent' left more, ?_⟩
  rw [List.head?_append_of_ne_nil _ left']

theorem settled_numeral (negative : Bool) : Settled (numeral negative) := by
  intro cs rest n read left more
  obtain ⟨parts, fits⟩ := numeral_eq_ok_iff.1 read
  exact numeral_eq_ok_iff.2 ⟨settled_parts negative parts left more, fits⟩

theorem settled_count : Settled count := by
  intro cs rest n read left more
  obtain ⟨c, t, found, behind, digit, number, word⟩ := count_eq_ok_iff.1 read
  exact count_eq_ok_iff.2 ⟨c, _, found, skipBlanks_extend more behind, digit,
    settled_numeral false number left more, word⟩

/-! ## Values that are passed over -/

section

variable {c : Char} {cs rest : List Char} (left : rest ≠ []) (more : List Char)

include left

theorem skipNumeral_extend (h : skipNumeral cs = .ok rest) :
    skipNumeral (cs ++ more) = .ok (rest ++ more) := by
  obtain ⟨n, read⟩ := skipNumeral_eq_ok_iff.1 h
  exact skipNumeral_eq_ok_iff.2 ⟨n, settled_parts false read left more⟩

theorem skipScalar_extend (h : skipScalar c cs = .ok rest) :
    skipScalar c (cs ++ more) = .ok (rest ++ more) := by
  unfold skipScalar at h ⊢
  split_ifs at h ⊢
  · exact skipWord_extend more h
  · exact skipWord_extend more h
  · exact skipWord_extend more h
  · exact skipNumeral_extend left more h
  · exact skipNumeral_extend left more h
  · exact skipString_extend more h

theorem skipOpening_extend {opened opened' : List Bracket} {state : SkipState}
    (h : skipOpening opened c cs = .ok (state, opened', rest)) :
    skipOpening opened c (cs ++ more) = .ok (state, opened', rest ++ more) := by
  unfold skipOpening at h ⊢
  split_ifs at h ⊢
  · cases h
    rfl
  · cases h
    rfl
  · obtain ⟨rest, passed, same⟩ := bind_eq_ok_iff.1 h
    cases same
    rw [skipScalar_extend left more passed]
    rfl

theorem skipItem_extend {bracket : Bracket} {opened opened' : List Bracket} {state : SkipState}
    (h : skipItem bracket opened c cs = .ok (state, opened', rest)) :
    skipItem bracket opened c (cs ++ more) = .ok (state, opened', rest ++ more) := by
  cases bracket with
  | square => exact skipOpening_extend left more h
  | curly =>
    obtain ⟨rest, name, same⟩ := bind_eq_ok_iff.1 h
    cases same
    have name' : skipName (c :: (cs ++ more)) = .ok (rest ++ more) := skipName_extend more name
    simp only [skipItem, name']
    rfl

theorem SkipStep.extend {state state' : SkipState} {opened opened' : List Bracket}
    (h : SkipStep (state, opened, cs) (state', opened', rest)) :
    SkipStep (state, opened, cs ++ more) (state', opened', rest ++ more) := by
  cases h with
  | value found opening =>
    exact .value (skipBlanks_extend more found) (skipOpening_extend left more opening)
  | close waits found => exact .close waits (skipBlanks_extend more found)
  | first found other item =>
    exact .first (skipBlanks_extend more found) other (skipItem_extend left more item)
  | nextElement found => exact .nextElement (skipBlanks_extend more found)
  | nextMember found name =>
    exact .nextMember (skipBlanks_extend more found) (skipName_extend more name)

/-- At every step something is left, as there is at the last. -/
theorem steps_extend {state state' : SkipState} {opened opened' : List Bracket}
    (h : ReflTransGen SkipStep (state, opened, cs) (state', opened', rest)) :
    ReflTransGen SkipStep (state, opened, cs ++ more) (state', opened', rest ++ more) := by
  generalize point : (state', opened', rest) = q at h
  induction h generalizing state' opened' rest with
  | refl =>
    cases point
    exact .refl
  | @tail mid q steps step ih =>
    subst point
    obtain ⟨state'', opened'', mid⟩ := mid
    have left' : mid ≠ [] := by
      rintro rfl
      exact Nat.not_lt_zero _ step.shrinks
    exact .tail (ih left' rfl) (step.extend left more)

theorem skipValue_extend (h : skipValue cs = .ok rest) :
    skipValue (cs ++ more) = .ok (rest ++ more) := by
  obtain ⟨state, waits, steps⟩ := skipValue_eq_ok_iff.1 h
  exact skipValue_eq_ok_iff.2 ⟨state, waits, steps_extend left more steps⟩

end

/-! ## Lists -/

section

variable {cs rest : List Char} {a : α} {b : β}

theorem firstOf_extend {element : Reader α} (h : Settled element)
    (read : firstOf element cs = .ok (a, rest)) (left : rest ≠ []) (more : List Char) :
    firstOf element (cs ++ more) = .ok (a, rest ++ more) := by
  obtain ⟨c, t, found, other, read⟩ := firstOf_eq_ok_iff.1 read
  exact firstOf_eq_ok_iff.2 ⟨c, _, skipBlanks_extend more found, other, h read left more⟩

theorem nextOf_extend {element : Reader α} (h : Settled element)
    (read : nextOf element cs = .ok (a, rest)) (left : rest ≠ []) (more : List Char) :
    nextOf element (cs ++ more) = .ok (a, rest ++ more) := by
  obtain ⟨t, d, u, comma, found, other, read⟩ := nextOf_eq_ok_iff.1 read
  exact nextOf_eq_ok_iff.2 ⟨_, d, _, skipBlanks_extend more comma, skipBlanks_extend more found,
    other, h read left more⟩

theorem ne_nil_of_nextOf {element : Reader α} (read : nextOf element cs = .ok (a, rest)) :
    cs ≠ [] := by
  rintro rfl
  cases read

theorem closeList_extend (h : closeList cs = .ok rest) (more : List Char) :
    closeList (cs ++ more) = .ok (rest ++ more) :=
  closeList_eq_ok_iff.2 (skipBlanks_extend more (closeList_eq_ok_iff.1 h))

theorem ne_nil_of_elements {element : Reader α} {bound : List Char} {first : Bool} {as : List α}
    (read : elements element bound first cs = .ok (as, rest)) : cs ≠ [] := by
  rintro rfl
  cases bound <;> simp [elements, skipBlanks] at read

/-- The elements end with a bracket, so something is left behind each of them. -/
theorem elements_extend {element : Reader α} (h : Settled element) {bound bound' : List Char}
    (room : bound.length ≤ bound'.length) {first : Bool} {as : List α}
    (read : elements element bound first cs = .ok (as, rest)) (more : List Char) :
    elements element bound' first (cs ++ more) = .ok (as, rest ++ more) := by
  induction bound generalizing bound' first cs as with
  | nil => simp [elements] at read
  | cons x bound ih =>
    have some' : 0 < bound'.length := by simp at room; omega
    obtain ⟨x', bound', rfl⟩ := List.exists_cons_of_length_pos some'
    have room' : bound.length ≤ bound'.length := by simpa using room
    rcases elements_cons_eq_ok_iff.1 read with ⟨rfl, closed⟩ | ⟨a, as, mid, rfl, head, others⟩
    · exact elements_cons_eq_ok_iff.2 (.inl ⟨rfl, skipBlanks_extend more closed⟩)
    · have left := ne_nil_of_elements others
      refine elements_cons_eq_ok_iff.2 (.inr ⟨a, as, _, rfl, ?_, ih room' others⟩)
      cases first with
      | true => exact firstOf_extend h head left more
      | false => exact nextOf_extend h head left more

theorem selfEnding_list {element? : Option (Reader α)} (h : ∀ r ∈ element?, Settled r) :
    SelfEnding (list element?) := by
  intro cs rest as read more
  obtain ⟨element, t, rfl, found, inner⟩ := list_eq_ok_iff.1 read
  have room : ('[' :: t).length ≤ ('[' :: (t ++ more)).length := by simp
  have inner' := elements_extend (h element rfl) room inner more
  exact list_eq_ok_iff.2 ⟨element, _, rfl, skipBlanks_extend more found, inner'⟩

theorem selfEnding_pairRest {first : Reader α} {second : Reader β} (h : Settled first)
    (h' : Settled second) : SelfEnding (pairRest first second) := by
  rintro cs rest ⟨a, b⟩ read more
  obtain ⟨mid, mid', front, back, closed⟩ := pairRest_eq_ok_iff.1 read
  have left : mid' ≠ [] := by
    rintro rfl
    cases closed
  exact pairRest_eq_ok_iff.2 ⟨_, _, firstOf_extend h front (ne_nil_of_nextOf back) more,
    nextOf_extend h' back left more, closeList_extend closed more⟩

theorem selfEnding_pair {elements? : Option (Reader α × Reader β)}
    (h : ∀ p ∈ elements?, Settled p.1 ∧ Settled p.2) : SelfEnding (pair elements?) := by
  rintro cs rest ⟨a, b⟩ read more
  obtain ⟨first, second, t, rfl, found, inner⟩ := pair_eq_ok_iff.1 read
  obtain ⟨first', second'⟩ := h (first, second) rfl
  exact pair_eq_ok_iff.2 ⟨first, second, _, rfl, skipBlanks_extend more found,
    selfEnding_pairRest first' second' inner more⟩

/-! ## Records -/

theorem nextMember_extend {first : Bool} {member? : Option Unit}
    (h : nextMember first cs = .ok (member?, rest)) (more : List Char) :
    nextMember first (cs ++ more) = .ok (member?, rest ++ more) := by
  cases member? with
  | none =>
    exact nextMember_eq_none_iff.2 (skipBlanks_extend more (nextMember_eq_none_iff.1 h))
  | some =>
    rw [nextMember_eq_some_iff] at h ⊢
    cases first with
    | true => exact skipBlanks_extend more h
    | false =>
      obtain ⟨t, comma, quote⟩ := h
      exact ⟨_, skipBlanks_extend more comma, skipBlanks_extend more quote⟩

theorem ne_nil_of_members {key : String} {body : Reader β} {bound : List Char} {first : Bool}
    {name? : Option String} {b? : Option β} {p : String × β}
    (read : members key body bound first name? b? cs = .ok (p, rest)) : cs ≠ [] := by
  rintro rfl
  cases bound <;> cases read

/-- Only the body may need something behind it, and a member that is passed over. -/
theorem members_extend {key : String} {body : Reader β} (h : Settled body)
    {bound bound' : List Char} (room : bound.length ≤ bound'.length) {first : Bool}
    {name? : Option String} {b? : Option β} {p : String × β}
    (read : members key body bound first name? b? cs = .ok (p, rest)) (more : List Char) :
    members key body bound' first name? b? (cs ++ more) = .ok (p, rest ++ more) := by
  induction bound generalizing bound' first name? b? cs with
  | nil => simp [members] at read
  | cons x bound ih =>
    have some' : 0 < bound'.length := by simp at room; omega
    obtain ⟨x', bound', rfl⟩ := List.exists_cons_of_length_pos some'
    have room' : bound.length ≤ bound'.length := by simpa using room
    rcases members_cons_eq_ok_iff.1 read with
      ⟨closed, found⟩ | ⟨inner, found, behind, value, opened, named, colon, member⟩
    · exact members_cons_eq_ok_iff.2 (.inl ⟨nextMember_extend closed more, found⟩)
    refine members_cons_eq_ok_iff.2 (.inr ⟨_, found, _, _, nextMember_extend opened more,
      selfEnding_stringBody named more, skipColon_extend more colon, ?_⟩)
    rcases member with ⟨isName, free, name, mid, read, others⟩ |
      ⟨notName, isKey, free, b, mid, read, others⟩ | ⟨notName, notKey, mid, passed, others⟩
    · exact .inl ⟨isName, free, name, _, selfEnding_text read more, ih room' others⟩
    · have read' := h read (ne_nil_of_members others) more
      exact .inr (.inl ⟨notName, isKey, free, b, _, read', ih room' others⟩)
    · have passed' := skipValue_extend (ne_nil_of_members others) more passed
      exact .inr (.inr ⟨notName, notKey, _, passed', ih room' others⟩)

theorem selfEnding_record {key : String} {body? : Option (Reader β)}
    (h : ∀ r ∈ body?, Settled r) : SelfEnding (record key body?) := by
  intro cs rest p read more
  obtain ⟨body, t, rfl, ⟨found, inner⟩ | ⟨found, inner⟩⟩ := record_eq_ok_iff.1 read
  · have room : ('\x7b' :: t).length ≤ ('\x7b' :: (t ++ more)).length := by simp
    have inner' := members_extend (h body rfl) room inner more
    exact record_eq_ok_iff.2 ⟨body, _, rfl, .inl ⟨skipBlanks_extend more found, inner'⟩⟩
  · have inner' := selfEnding_pairRest selfEnding_text.settled (h body rfl) inner more
    exact record_eq_ok_iff.2 ⟨body, _, rfl, .inr ⟨skipBlanks_extend more found, inner'⟩⟩

/-! ## Choices -/

theorem closeObject_extend (h : closeObject cs = .ok rest) (more : List Char) :
    closeObject (cs ++ more) = .ok (rest ++ more) :=
  closeObject_eq_ok_iff.2 (skipBlanks_extend more (closeObject_eq_ok_iff.1 h))

theorem selfEnding_choice {variants : String → Option (Variant α)} {nested : Bool}
    (h : nested = true → ∀ name r, variants name = some (.loaded r) → Settled r) :
    SelfEnding (choice variants nested) := by
  intro cs rest a read more
  rcases choice_eq_ok_iff.1 read with ⟨t, name, found, named, known⟩ |
    ⟨open', t, name, behind, variant, value, mid, found, named, known, colon, payload, closed⟩
  · exact choice_eq_ok_iff.2 (.inl ⟨_, name, skipBlanks_extend more found,
      selfEnding_stringBody named more, known⟩)
  · have left : mid ≠ [] := by
      rintro rfl
      cases closed
    have settled : Settled variant.payload := by
      cases variant with
      | bare a =>
        have unread := selfEnding_nullWord.mapped fun _ => a
        exact unread.settled
      | loaded r => exact h open' name r known
    exact choice_eq_ok_iff.2 (.inr ⟨open', _, name, _, variant, _, _, skipBlanks_extend more found,
      selfEnding_memberName named more, known, skipColon_extend more colon,
      settled payload left more, closeObject_extend closed more⟩)

end

/-! ## Whole texts -/

/-- If a text is read and a start of it too, both hold the same and the start lacks blanks only. -/
theorem SelfEnding.blanks_of_parse {r : Reader α} (h : SelfEnding r) {u v : String} {a b : α}
    (short : parse r u = .ok a) (long : parse r (u ++ v) = .ok b) :
    Blanks v.toList ∧ a = b := by
  obtain ⟨rest, read, ends⟩ := parse_eq_ok_iff.1 short
  obtain ⟨rest', read', ends'⟩ := parse_eq_ok_iff.1 long
  rw [String.toList_append, h read v.toList] at read'
  cases read'
  refine ⟨fun c hc => ?_, rfl⟩
  exact List.dropWhile_eq_nil_iff.1 ends' c (List.mem_append_right rest hc)

end TeImage.Json
