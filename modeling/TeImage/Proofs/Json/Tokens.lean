/-
Blanks, strings and numbers of JSON text. A string reads back from every spelling of its characters
(`Spelled.stringBody`), of which the one that is written is a case (`spelled_flatMap_escape`); a
number of 64 bits reads back from its decimal digits wherever a value may end (`numeral_toDigits`).
-/
import Mathlib.Tactic
import TeImage.Json.Structure

namespace TeImage.Json

/-! ## Blanks -/

section

variable {ws : List Char} {c : Char}

def Blanks (ws : List Char) : Prop := ∀ c ∈ ws, isBlank c = true

theorem blanks_nil : Blanks [] := by
  intro c hc
  cases hc

theorem blanks_lineBreak (level : Option Nat) : Blanks (lineBreak level) := by
  cases level with
  | none => exact blanks_nil
  | some level =>
    intro c hc
    rcases List.mem_cons.1 hc with rfl | hc
    · rfl
    · rw [List.eq_of_mem_replicate hc]
      rfl

theorem skipBlanks_append (h : Blanks ws) (cs : List Char) :
    skipBlanks (ws ++ cs) = skipBlanks cs :=
  List.dropWhile_append_of_pos h

theorem skipBlanks_of_blanks (h : Blanks ws) : skipBlanks ws = [] := by
  rw [← List.append_nil ws, skipBlanks_append h]
  rfl

theorem skipBlanks_cons (h : isBlank c = false) (cs : List Char) :
    skipBlanks (c :: cs) = c :: cs := by
  simp only [skipBlanks, List.dropWhile_cons, h, Bool.false_eq_true, if_false]

/-- The colon that parts a name from its value, with blanks around it. -/
theorem skipColon_append (h : Blanks ws) (cs : List Char) :
    skipColon (ws ++ ':' :: cs) = .ok cs := by
  simp only [skipColon, skipBlanks_append h, skipBlanks_cons (c := ':') rfl]

end

/-! ## Strings -/

/-- The ways to write characters between quotes: as they are, by an escape of one letter, by a code
unit, or by the two code units of a surrogate pair. -/
inductive Spelled : (text found : List Char) → Prop where
  | nil : Spelled [] []
  | plain {c : Char} {text found : List Char} (printing : ¬ c < ' ') (quote : c ≠ '"')
      (backslash : c ≠ '\\') (rest : Spelled text found) : Spelled (c :: text) (c :: found)
  | short {e c : Char} {text found : List Char} (escaped : unescape? e = some c)
      (rest : Spelled text found) : Spelled ('\\' :: e :: text) (c :: found)
  | unit {a b c d : Char} {unit : Nat} {char : Char} {text found : List Char}
      (digits : hexValues? a b c d = some unit) (step : unitStep none unit = .char char)
      (rest : Spelled text found) :
      Spelled ('\\' :: 'u' :: a :: b :: c :: d :: text) (char :: found)
  | pair {a b c d a' b' c' d' : Char} {high low : Nat} {char : Char} {text found : List Char}
      (digits : hexValues? a b c d = some high) (step : unitStep none high = .high high)
      (digits' : hexValues? a' b' c' d' = some low) (step' : unitStep (some high) low = .char char)
      (rest : Spelled text found) :
      Spelled ('\\' :: 'u' :: a :: b :: c :: d :: '\\' :: 'u' :: a' :: b' :: c' :: d' :: text)
        (char :: found)

theorem stringRest_quote (cs : List Char) : stringRest none ('"' :: cs) = .ok ([], cs) := by
  rw [stringRest.eq_def]
  rfl

theorem stringRest_plain {c : Char} (printing : ¬ c < ' ') (quote : c ≠ '"')
    (backslash : c ≠ '\\') (cs : List Char) : stringRest none (c :: cs) =
      (stringRest none cs).map fun p => (c :: p.1, p.2) := by
  rw [stringRest.eq_def]
  simp only [backslash, quote, printing, if_false, Option.isSome_none, Bool.false_eq_true]
  rfl

theorem stringRest_short {e c : Char} (escaped : unescape? e = some c) (cs : List Char) :
    stringRest none ('\\' :: e :: cs) = (stringRest none cs).map fun p => (c :: p.1, p.2) := by
  have other : e ≠ 'u' := by
    rintro rfl
    cases escaped
  rw [stringRest.eq_def]
  simp only [if_true, other, if_false, Option.isSome_none, Bool.false_eq_true, escaped]
  rfl

theorem stringRest_unit {high? : Option Nat} {a b c d : Char} {unit : Nat}
    (digits : hexValues? a b c d = some unit) (cs : List Char) :
    stringRest high? ('\\' :: 'u' :: a :: b :: c :: d :: cs) =
      match unitStep high? unit with
      | .lone => .error .malformed
      | .high unit => stringRest (some unit) cs
      | .char found => (stringRest none cs).map fun p => (found :: p.1, p.2) := by
  rw [stringRest.eq_def]
  simp only [if_true, digits]
  rfl

theorem Spelled.stringRest {text found : List Char} (h : Spelled text found) (rest : List Char) :
    stringRest none (text ++ '"' :: rest) = .ok (found, rest) := by
  induction h with
  | nil => exact stringRest_quote rest
  | plain printing quote backslash _ ih =>
    rw [List.cons_append, stringRest_plain printing quote backslash, ih]
    rfl
  | short escaped _ ih =>
    simp only [List.cons_append]
    rw [stringRest_short escaped, ih]
    rfl
  | unit digits step _ ih =>
    simp only [List.cons_append]
    rw [stringRest_unit digits, step, ih]
    rfl
  | pair digits step digits' step' _ ih =>
    simp only [List.cons_append]
    simp only [stringRest_unit digits, step]
    rw [stringRest_unit digits', step', ih]
    rfl

theorem Spelled.stringBody {text : List Char} {s : String} (h : Spelled text s.toList)
    (rest : List Char) : stringBody (text ++ '"' :: rest) = .ok (s, rest) := by
  simp only [Json.stringBody, h.stringRest]
  simp [bind, Except.bind, pure, Except.pure]

/-- The digits that write a control character. -/
theorem hexValues?_control {n : Nat} (h : n < 32) :
    hexValues? '0' '0' (Nat.digitChar (n / 16)) (Nat.digitChar (n % 16)) = some n := by
  revert n
  decide

theorem Spelled.escape {text found : List Char} (h : Spelled text found) (c : Char) :
    Spelled (escape c ++ text) (c :: found) := by
  unfold Json.escape
  -- seven characters have a letter of their own
  iterate 7
    split
    · next hc => exact .short (by rw [hc]; rfl) h
  split
  · next control =>
    have small : c.toNat < 32 := control
    have notLow : ¬ 0xDC00 ≤ c.toNat := by omega
    have notHigh : ¬ 0xD800 ≤ c.toNat := by omega
    exact .unit (hexValues?_control small) (by simp [unitStep, notLow, notHigh]) h
  · next quote backslash _ _ _ _ _ printing => exact .plain printing quote backslash h

theorem spelled_flatMap_escape (cs : List Char) : Spelled (cs.flatMap escape) cs := by
  induction cs with
  | nil => exact .nil
  | cons c cs ih => exact ih.escape c

/-! ## Numbers -/

/-- What may stand behind a value: nothing, a blank, a comma or a closing bracket. -/
def Delimited (rest : List Char) : Prop :=
  ∀ c ∈ rest.head?, isBlank c = true ∨ c = ',' ∨ c = ']' ∨ c = '}'

theorem delimited_nil : Delimited [] := by
  intro c hc
  cases hc

theorem delimited_cons {c : Char} (h : isBlank c = true ∨ c = ',' ∨ c = ']' ∨ c = '}')
    (cs : List Char) : Delimited (c :: cs) := by
  intro d hd
  cases hd
  exact h

theorem delimited_append {ws cs : List Char} (blanks : Blanks ws) (h : Delimited cs) :
    Delimited (ws ++ cs) := by
  cases ws with
  | nil => exact h
  | cons w ws => exact delimited_cons (.inl (blanks w List.mem_cons_self)) _

theorem Blanks.delimited {ws : List Char} (blanks : Blanks ws) : Delimited ws := by
  rw [← List.append_nil ws]
  exact delimited_append blanks delimited_nil

/-- A delimiter goes on with no part of a number. -/
theorem Delimited.head {c : Char} {cs : List Char} (h : Delimited (c :: cs)) :
    c.isDigit = false ∧ c ≠ '.' ∧ c ≠ 'e' ∧ c ≠ 'E' := by
  have hc := h c rfl
  simp only [isBlank, Bool.or_eq_true, decide_eq_true_eq] at hc
  rcases hc with (((rfl | rfl) | rfl) | rfl) | rfl | rfl | rfl <;> decide

theorem isBlank_of_isDigit {c : Char} (h : c.isDigit = true) : isBlank c = false := by
  simp only [isBlank, Bool.or_eq_false_iff, decide_eq_false_iff_not]
  refine ⟨⟨⟨?_, ?_⟩, ?_⟩, ?_⟩ <;> (rintro rfl; exact absurd h (by decide))

theorem digits_append_of_head {ds rest : List Char} (all : ∀ c ∈ ds, c.isDigit = true)
    (stop : ∀ c ∈ rest.head?, c.isDigit = false) : digits (ds ++ rest) = (ds, rest) := by
  have behind : rest.takeWhile Char.isDigit = [] ∧ rest.dropWhile Char.isDigit = rest := by
    cases rest with
    | nil => exact ⟨rfl, rfl⟩
    | cons c cs => simp [stop c rfl]
  simp only [digits, List.takeWhile_append_of_pos all, List.dropWhile_append_of_pos all, behind,
    List.append_nil]

theorem digits_append {ds rest : List Char} (all : ∀ c ∈ ds, c.isDigit = true)
    (h : Delimited rest) : digits (ds ++ rest) = (ds, rest) := by
  refine digits_append_of_head all fun c hc => ?_
  obtain ⟨cs, rfl⟩ := List.head?_eq_some_iff.1 hc
  exact h.head.1

theorem accumulate_eq {n : Nat} {ds : List Char} (h : Nat.ofDigitChars 10 ds n < UInt64.size) :
    accumulate n ds = (Nat.ofDigitChars 10 ds n, ds.length) := by
  induction ds generalizing n with
  | nil => rfl
  | cons d ds ih =>
    have step : Nat.ofDigitChars 10 (d :: ds) n =
        Nat.ofDigitChars 10 ds (n * 10 + digitValue d) := by
      rw [Nat.ofDigitChars_cons, Nat.mul_comm]
      rfl
    rw [step] at h ⊢
    have grows : n * 10 + digitValue d ≤ Nat.ofDigitChars 10 ds (n * 10 + digitValue d) := by
      rw [Nat.ofDigitChars_eq_ofDigitChars_zero]
      exact le_add_right (Nat.le_mul_of_pos_left _ (by positivity))
    simp only [accumulate, lt_of_le_of_lt grows h, if_true, ih h, List.length_cons]

/-- Decimal digits have no leading zero but the digit of zero. -/
theorem toDigits_head (n : Nat) :
    ¬ ((Nat.toDigits 10 n).head? = some '0' ∧ (Nat.toDigits 10 n).length ≠ 1) := by
  induction n using Nat.strong_induction_on with
  | _ n ih =>
    rw [Nat.toDigits_eq_if (by decide)]
    split
    · simp
    · next large =>
      -- a leading zero would be the only digit of `n / 10`, which then is zero itself
      rintro ⟨head, -⟩
      rw [List.head?_append_of_ne_nil _ Nat.toDigits_ne_nil] at head
      have single : (Nat.toDigits 10 (n / 10)).length = 1 := by
        by_contra long
        exact ih (n / 10) (by omega) ⟨head, long⟩
      obtain ⟨d, hd⟩ := List.length_eq_one_iff.1 single
      have zero : d = '0' := by simpa [hd] using head
      have value := Nat.ofDigitChars_ten_toDigits (n := n / 10)
      rw [hd, zero] at value
      have : n / 10 = 0 := value.symm
      omega

theorem wholeDigits_toDigits (n : Nat) {rest : List Char} (h : Delimited rest) :
    wholeDigits (Nat.toDigits 10 n ++ rest) = .ok (Nat.toDigits 10 n, rest) := by
  have all : ∀ c ∈ Nat.toDigits 10 n, c.isDigit = true := fun c =>
    Nat.isDigit_of_mem_toDigits (by decide) (by decide)
  have found : someDigits (Nat.toDigits 10 n ++ rest) = .ok (Nat.toDigits 10 n, rest) := by
    unfold someDigits
    rw [digits_append all h]
    split
    · next none => exact absurd (congrArg Prod.fst none) Nat.toDigits_ne_nil
    · rfl
  simp only [wholeDigits, found, bind, Except.bind, toDigits_head n, if_false]

/-- Behind the digits of a number that ends there is neither a point nor an exponent. -/
theorem Delimited.parts {rest : List Char} (h : Delimited rest) : rest.head? ≠ some '.' ∧
    fractionDigits rest = .ok ([], rest) ∧ exponentDigits rest = .ok ((false, []), rest) := by
  cases rest with
  | nil => exact ⟨nofun, rfl, rfl⟩
  | cons c cs =>
    obtain ⟨-, point, small, large⟩ := h.head
    refine ⟨by simpa using point, ?_, ?_⟩
    · unfold fractionDigits
      split
      · next same => exact absurd (List.cons.inj same).1 point
      · rfl
    · simp only [exponentDigits, small, large, or_self, if_false]

theorem toDigits_eq_cons (n : Nat) :
    ∃ d ds, Nat.toDigits 10 n = d :: ds ∧ d.isDigit = true := by
  obtain ⟨d, ds, hd⟩ := List.exists_cons_of_ne_nil (Nat.toDigits_ne_nil (n := n) (b := 10))
  have member : d ∈ Nat.toDigits 10 n := hd ▸ List.mem_cons_self
  exact ⟨d, ds, hd, Nat.isDigit_of_mem_toDigits (by decide) (by decide) member⟩

/-- A number of 64 bits reads back from its decimal digits. -/
theorem numeral_toDigits {n : Nat} (small : n < UInt64.size) {rest : List Char}
    (h : Delimited rest) : ∃ found, numeral false (Nat.toDigits 10 n ++ rest) = .ok (found, rest) ∧
      found.word? = some (UInt64.ofNat n) := by
  obtain ⟨point, fraction, exponent⟩ := h.parts
  have value : accumulate 0 (Nat.toDigits 10 n) = (n, (Nat.toDigits 10 n).length) := by
    rw [accumulate_eq] <;> rw [Nat.ofDigitChars_ten_toDigits]
    exact small
  have word : (⟨false, Nat.toDigits 10 n, false, [], false, []⟩ : Numeral).word? =
      some (UInt64.ofNat n) := by
    simp [Numeral.word?, value]
  refine ⟨_, ?_, word⟩
  simp [numeral, wholeDigits_toDigits n h, point, fraction, exponent, word, bind, Except.bind, pure,
    Except.pure]

end TeImage.Json
