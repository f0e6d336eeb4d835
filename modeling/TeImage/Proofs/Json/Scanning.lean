/-
What the readers of strings and numbers accept. Between its quotes a string that is kept is a
spelling of its characters and nothing else (`stringBody_eq_ok_iff`), and one that is passed over is
any text without control characters whose escapes are whole (`skipString_eq_ok_iff`), so that half a
surrogate pair may stand in it. Numbers that are kept and numbers that are passed over have the same
parts, of which only the kept ones are looked at (`numeral_eq_ok_iff`, `skipNumeral_eq_ok_iff`).
Where a value may end a number is taken as a whole (`NumberText.parts`), and one of 64 bits has no
other text than its decimal digits (`NumberText.eq_toDigits`).
-/
import Mathlib.Tactic
import TeImage.Proofs.Json.Acceptance
import TeImage.Proofs.Json.Tokens

namespace TeImage.Json

/-! ## Strings that are kept -/

/-- The ways to write characters behind the first half of a surrogate pair, if there is one. -/
inductive SpelledAfter : (high? : Option Nat) → (text found : List Char) → Prop where
  | whole {text found : List Char} (spelled : Spelled text found) : SpelledAfter none text found
  | half {a b c d : Char} {high low : Nat} {char : Char} {text found : List Char}
      (digits : hexValues? a b c d = some low) (step : unitStep (some high) low = .char char)
      (rest : Spelled text found) :
      SpelledAfter (some high) ('\\' :: 'u' :: a :: b :: c :: d :: text) (char :: found)

theorem SpelledAfter.spelled {text found : List Char} (h : SpelledAfter none text found) :
    Spelled text found := by
  cases h with
  | whole spelled => exact spelled

/-- Only a first half of a pair is waited upon, and only a second half may come behind it. -/
theorem eq_of_unitStep_high {high? : Option Nat} {unit high : Nat}
    (h : unitStep high? unit = .high high) : high? = none ∧ high = unit := by
  cases high? with
  | none =>
    simp only [unitStep] at h
    split_ifs at h
    cases h
    exact ⟨rfl, rfl⟩
  | some high =>
    simp only [unitStep] at h
    split_ifs at h

theorem spelled_of_stringRest {high? : Option Nat} {cs found rest : List Char}
    (h : stringRest high? cs = .ok (found, rest)) :
    ∃ text, cs = text ++ '"' :: rest ∧ SpelledAfter high? text found := by
  fun_induction stringRest high? cs generalizing found rest with
  | case1 | case2 | case3 | case4 | case7 | case8 | case9 | case11 | case13 => cases h
  | case5 high? a b c d cs unit digits high step ih =>
    obtain ⟨text, rfl, behind⟩ := ih h
    obtain ⟨rfl, rfl⟩ := eq_of_unitStep_high step
    cases behind with
    | half digits' step' rest =>
      exact ⟨_, rfl, .whole (.pair digits step digits' step' rest)⟩
  | case6 high? a b c d cs unit digits char step ih =>
    obtain ⟨⟨found, rest⟩, read, same⟩ := bind_eq_ok_iff.1 h
    cases same
    obtain ⟨text, rfl, behind⟩ := ih read
    refine ⟨'\\' :: 'u' :: a :: b :: c :: d :: text, rfl, ?_⟩
    cases high? with
    | none => exact .whole (.unit digits step behind.spelled)
    | some high => exact .half digits step behind.spelled
  | case10 high? e cs _ low char escaped ih =>
    obtain ⟨⟨found, rest⟩, read, same⟩ := bind_eq_ok_iff.1 h
    cases same
    obtain ⟨text, rfl, behind⟩ := ih read
    obtain rfl : high? = none := by simpa using low
    exact ⟨_, rfl, .whole (.short escaped behind.spelled)⟩
  | case12 high? cs low =>
    cases h
    obtain rfl : high? = none := by simpa using low
    exact ⟨[], rfl, .whole .nil⟩
  | case14 high? c cs backslash low quote printing ih =>
    obtain ⟨⟨found, rest⟩, read, same⟩ := bind_eq_ok_iff.1 h
    cases same
    obtain ⟨text, rfl, behind⟩ := ih read
    obtain rfl : high? = none := by simpa using low
    exact ⟨_, rfl, .whole (.plain printing quote backslash behind.spelled)⟩

theorem stringBody_eq_ok_iff {cs rest : List Char} {s : String} : stringBody cs = .ok (s, rest) ↔
    ∃ text, cs = text ++ '"' :: rest ∧ Spelled text s.toList := by
  constructor
  · intro h
    obtain ⟨⟨found, rest'⟩, read, same⟩ := bind_eq_ok_iff.1 h
    cases same
    obtain ⟨text, rfl, spelled⟩ := spelled_of_stringRest read
    exact ⟨text, rfl, by rw [String.toList_ofList]; exact spelled.spelled⟩
  · rintro ⟨text, rfl, spelled⟩
    exact spelled.stringBody rest

/-- A text spells one string only. -/
theorem Spelled.unique {text : List Char} {s s' : String} (h : Spelled text s.toList)
    (h' : Spelled text s'.toList) : s = s' := by
  have same := (h.stringBody []).symm.trans (h'.stringBody [])
  cases same
  rfl

/-! ## Strings that are passed over -/

/-- What may stand between the quotes of a string that is passed over. -/
inductive StringText : List Char → Prop where
  | nil : StringText []
  | plain {c : Char} {text : List Char} (printing : ¬ c < ' ') (quote : c ≠ '"')
      (backslash : c ≠ '\\') (rest : StringText text) : StringText (c :: text)
  | short {e : Char} {text : List Char} (escaped : (unescape? e).isSome) (rest : StringText text) :
      StringText ('\\' :: e :: text)
  | unit {a b c d : Char} {text : List Char} (digits : (hexValues? a b c d).isSome)
      (rest : StringText text) : StringText ('\\' :: 'u' :: a :: b :: c :: d :: text)

theorem Spelled.stringText {text found : List Char} (h : Spelled text found) : StringText text := by
  induction h with
  | nil => exact .nil
  | plain printing quote backslash _ ih => exact .plain printing quote backslash ih
  | short escaped _ ih => exact .short (Option.isSome_of_eq_some escaped) ih
  | unit digits _ _ ih => exact .unit (Option.isSome_of_eq_some digits) ih
  | pair digits _ digits' _ _ ih =>
    exact .unit (Option.isSome_of_eq_some digits) (.unit (Option.isSome_of_eq_some digits') ih)

theorem skipString_eq_ok_iff {cs rest : List Char} : skipString cs = .ok rest ↔
    ∃ text, cs = text ++ '"' :: rest ∧ StringText text := by
  constructor
  · intro h
    fun_induction skipString cs with
    | case1 | case2 | case4 | case5 | case7 | case9 => cases h
    | case3 a b c d cs digits ih =>
      obtain ⟨text, rfl, behind⟩ := ih h
      exact ⟨_, rfl, .unit digits behind⟩
    | case6 e cs _ escaped ih =>
      obtain ⟨text, rfl, behind⟩ := ih h
      exact ⟨_, rfl, .short escaped behind⟩
    | case8 cs =>
      cases h
      exact ⟨[], rfl, .nil⟩
    | case10 c cs backslash quote printing ih =>
      obtain ⟨text, rfl, behind⟩ := ih h
      exact ⟨_, rfl, .plain printing quote backslash behind⟩
  · rintro ⟨text, rfl, h⟩
    induction h with
    | nil =>
      rw [List.nil_append, skipString.eq_def]
      rfl
    | plain printing quote backslash _ ih =>
      rw [List.cons_append, skipString.eq_def]
      simp only [backslash, quote, printing, if_false, ih]
    | @short e text escaped _ ih =>
      have other : e ≠ 'u' := by
        rintro rfl
        cases escaped
      rw [List.cons_append, List.cons_append, skipString.eq_def]
      simp only [if_true, other, if_false, escaped, ih]
    | unit digits _ ih =>
      simp only [List.cons_append]
      rw [skipString.eq_def]
      simp only [if_true, digits, ih]

/-! ## Numbers -/

/-- Decimal digits, at least one. -/
structure DigitsText (ds : List Char) : Prop where
  nonempty : ds ≠ []
  digits : ∀ c ∈ ds, c.isDigit = true

/-- The digits before the point: no digit follows a leading zero. -/
structure WholeText (ds : List Char) : Prop extends DigitsText ds where
  noZero : ¬ (ds.head? = some '0' ∧ ds.length ≠ 1)

inductive FractionText : List Char → Prop where
  | none : FractionText []
  | some {ds : List Char} (digits : DigitsText ds) : FractionText ('.' :: ds)

inductive ExponentText : List Char → Prop where
  | none : ExponentText []
  | some {e : Char} {sign ds : List Char} (letter : e = 'e' ∨ e = 'E')
      (signed : sign = [] ∨ sign = ['-'] ∨ sign = ['+']) (digits : DigitsText ds) :
      ExponentText (e :: (sign ++ ds))

/-- A number, of any size, behind its sign. -/
inductive NumberText : List Char → Prop where
  | intro {whole fraction exponent : List Char} (wholeText : WholeText whole)
      (fractionText : FractionText fraction) (exponentText : ExponentText exponent) :
      NumberText (whole ++ (fraction ++ exponent))

section

variable {cs ds rest : List Char}

theorem someDigits_eq_ok_iff : someDigits cs = .ok (ds, rest) ↔
    cs = ds ++ rest ∧ DigitsText ds ∧ ∀ c ∈ rest.head?, c.isDigit = false := by
  constructor
  · intro h
    unfold someDigits at h
    split at h
    · cases h
    · next some' =>
      cases h
      refine ⟨List.takeWhile_append_dropWhile.symm, ⟨?_, ?_⟩, ?_⟩
      · intro none
        exact some' _ (Prod.ext none rfl)
      · intro c hc
        exact List.all_eq_true.1 List.all_takeWhile c hc
      · intro c hc
        have stop := List.head?_dropWhile_not Char.isDigit cs
        rw [Option.mem_def.1 hc] at stop
        simpa using stop
  · rintro ⟨rfl, text, stop⟩
    unfold someDigits
    rw [digits_append_of_head text.digits stop]
    split
    · next none => exact absurd (congrArg Prod.fst none) text.nonempty
    · rfl

theorem wholeDigits_eq_ok_iff : wholeDigits cs = .ok (ds, rest) ↔
    cs = ds ++ rest ∧ WholeText ds ∧ ∀ c ∈ rest.head?, c.isDigit = false := by
  simp only [wholeDigits, bind_eq_ok_iff, Prod.exists, someDigits_eq_ok_iff]
  constructor
  · rintro ⟨_, _, ⟨rfl, text, stop⟩, h⟩
    split_ifs at h with zero
    cases h
    exact ⟨rfl, ⟨text, zero⟩, stop⟩
  · rintro ⟨rfl, text, stop⟩
    exact ⟨_, _, ⟨rfl, text.toDigitsText, stop⟩, if_neg text.noZero⟩

theorem fractionDigits_eq_ok_iff : fractionDigits cs = .ok (ds, rest) ↔
    (ds = [] ∧ rest = cs ∧ cs.head? ≠ some '.') ∨
      ∃ t, cs = '.' :: t ∧ someDigits t = .ok (ds, rest) := by
  unfold fractionDigits
  split
  · simp
  · next other =>
    have noPoint : cs.head? ≠ some '.' := by
      intro point
      obtain ⟨t, rfl⟩ := List.head?_eq_some_iff.1 point
      exact other t rfl
    constructor
    · intro h
      cases h
      exact .inl ⟨rfl, rfl, noPoint⟩
    · rintro (⟨rfl, rfl, -⟩ | ⟨t, rfl, -⟩)
      · rfl
      · exact absurd rfl (other t)

/-- The sign of an exponent, whether it is a minus and what is behind it. -/
def signed : List Char → Bool × List Char
  | '-' :: cs => (true, cs)
  | '+' :: cs => (false, cs)
  | cs => (false, cs)

theorem signed_cons {c : Char} (h : c.isDigit = true) : signed (c :: cs) = (false, c :: cs) := by
  unfold signed
  split
  · next minus =>
    cases minus
    cases h
  · next plus =>
    cases plus
    cases h
  · rfl

theorem exponentDigits_eq_ok_iff {found : Bool × List Char} :
    exponentDigits cs = .ok (found, rest) ↔
      (found = (false, []) ∧ rest = cs ∧ ∀ c ∈ cs.head?, ¬ (c = 'e' ∨ c = 'E')) ∨
      ∃ e t, (e = 'e' ∨ e = 'E') ∧ cs = e :: t ∧ found.1 = (signed t).1 ∧
        someDigits (signed t).2 = .ok (found.2, rest) := by
  cases cs with
  | nil => simp [exponentDigits, eq_comm]
  | cons c cs =>
    by_cases letter : c = 'e' ∨ c = 'E'
    · obtain ⟨negative, ds⟩ := found
      simp only [exponentDigits, if_pos letter]
      constructor
      · intro h
        split at h
        · cases h
        · next read =>
          cases h
          exact .inr ⟨c, cs, letter, rfl, rfl, read⟩
      · rintro (⟨-, -, other⟩ | ⟨_, _, -, same, rfl, read⟩)
        · exact absurd letter (other c rfl)
        cases same
        split
        · next failed => cases read.symm.trans failed
        · next read' =>
          cases read.symm.trans read'
          rfl
    · simp only [exponentDigits, if_neg letter]
      constructor
      · intro h
        cases h
        refine .inl ⟨rfl, rfl, fun d hd => ?_⟩
        cases hd
        exact letter
      · rintro (⟨rfl, rfl, -⟩ | ⟨_, _, letter', same, -⟩)
        · rfl
        · cases same
          exact absurd letter' letter

/-- A number of any size, with its parts as they are written. -/
def parts (negative : Bool) : Reader Numeral := fun cs => do
  let (whole, cs) ← wholeDigits cs
  let pointed := cs.head? = some '.'
  let (fraction, cs) ← fractionDigits cs
  let ((exponentNegative, exponent), cs) ← exponentDigits cs
  return ({ negative, whole, pointed, fraction, exponentNegative, exponent }, cs)

theorem parts_eq_ok_iff {negative : Bool} {n : Numeral} : parts negative cs = .ok (n, rest) ↔
    ∃ whole cs' fraction cs'' exponent, wholeDigits cs = .ok (whole, cs') ∧
      fractionDigits cs' = .ok (fraction, cs'') ∧ exponentDigits cs'' = .ok (exponent, rest) ∧
      n = ⟨negative, whole, cs'.head? = some '.', fraction, exponent.1, exponent.2⟩ := by
  simp only [parts, bind_eq_ok_iff, pure_eq_ok_iff, Prod.exists, Prod.mk.injEq]
  constructor
  · rintro ⟨whole, cs', whole', fraction, cs'', fraction', sign, exponent, _, exponent', rfl, rfl⟩
    exact ⟨whole, cs', fraction, cs'', sign, exponent, whole', fraction', exponent', rfl⟩
  · rintro ⟨whole, cs', fraction, cs'', sign, exponent, whole', fraction', exponent', rfl⟩
    exact ⟨whole, cs', whole', fraction, cs'', fraction', sign, exponent, rest, exponent', rfl, rfl⟩

theorem numeral_eq_ok_iff {negative : Bool} {n : Numeral} : numeral negative cs = .ok (n, rest) ↔
    parts negative cs = .ok (n, rest) ∧ (n.word?.isSome = true ∨ n.tooLarge = false) := by
  have checked : numeral negative cs = parts negative cs >>= fun p =>
      if p.1.word?.isSome then return p else if p.1.tooLarge then .error .malformed
      else return p := by
    simp only [numeral, parts, bind_assoc, pure_bind]
  rw [checked, bind_eq_ok_iff]
  constructor
  · rintro ⟨⟨n', rest'⟩, read, h⟩
    simp only at h
    split_ifs at h with word large
    · cases h
      exact ⟨read, .inl word⟩
    · cases h
      exact ⟨read, .inr (by simpa using large)⟩
  · rintro ⟨read, fits⟩
    refine ⟨_, read, ?_⟩
    rcases fits with word | small
    · simp [word, pure, Except.pure]
    · simp [small, pure, Except.pure]

theorem skipNumeral_eq_ok_iff :
    skipNumeral cs = .ok rest ↔ ∃ n, parts false cs = .ok (n, rest) := by
  have unmapped {x : Except Fault (List Char)} {f : Fault → Fault} :
      x.mapError f = .ok rest ↔ x = .ok rest := by
    cases x <;> simp [Except.mapError]
  simp only [parts_eq_ok_iff, skipNumeral, unmapped, bind_eq_ok_iff, pure_eq_ok_iff, Prod.exists]
  constructor
  · rintro ⟨whole, cs', whole', fraction, cs'', fraction', sign, exponent, _, exponent', rfl⟩
    exact ⟨_, whole, cs', fraction, cs'', sign, exponent, whole', fraction', exponent', rfl⟩
  · rintro ⟨_, whole, cs', fraction, cs'', sign, exponent, whole', fraction', exponent', -⟩
    exact ⟨whole, cs', whole', fraction, cs'', fraction', sign, exponent, rest, exponent', rfl⟩

theorem FractionText.read {text : List Char} (h : FractionText text)
    (stop : ∀ c ∈ rest.head?, c.isDigit = false ∧ c ≠ '.') :
    ∃ found, fractionDigits (text ++ rest) = .ok (found, rest) := by
  cases h with
  | none =>
    exact ⟨[], fractionDigits_eq_ok_iff.2 (.inl ⟨rfl, rfl, fun point => (stop _ point).2 rfl⟩)⟩
  | @some ds digits =>
    have read := someDigits_eq_ok_iff.2 ⟨rfl, digits, fun c hc => (stop c hc).1⟩
    exact ⟨ds, fractionDigits_eq_ok_iff.2 (.inr ⟨_, rfl, read⟩)⟩

theorem ExponentText.read {text : List Char} (h : ExponentText text)
    (stop : ∀ c ∈ rest.head?, c.isDigit = false ∧ ¬ (c = 'e' ∨ c = 'E')) :
    ∃ found, exponentDigits (text ++ rest) = .ok (found, rest) ∧ (found.2 = [] → text = []) := by
  cases h with
  | none =>
    have plain := exponentDigits_eq_ok_iff.2 (.inl ⟨rfl, rfl, fun c hc => (stop c hc).2⟩)
    exact ⟨_, plain, fun _ => rfl⟩
  | @some e sign ds letter sign' digits =>
    have read := someDigits_eq_ok_iff.2 ⟨rfl, digits, fun c hc => (stop c hc).1⟩
    have behind : (signed (sign ++ (ds ++ rest))).2 = ds ++ rest := by
      obtain ⟨d, ds, rfl⟩ := List.exists_cons_of_ne_nil digits.nonempty
      rcases sign' with rfl | rfl | rfl
      · exact congrArg Prod.snd (signed_cons (digits.digits d List.mem_cons_self))
      · rfl
      · rfl
    refine ⟨((signed (sign ++ (ds ++ rest))).1, ds), exponentDigits_eq_ok_iff.2 (.inr
      ⟨e, sign ++ (ds ++ rest), letter, by simp, rfl, by rw [behind, read]⟩), ?_⟩
    exact fun none => absurd none digits.nonempty

/-- A number is taken as a whole where a value may end. Without a point and an exponent it is its
digits. -/
theorem NumberText.parts {t : List Char} (h : NumberText t) (ends : Delimited rest)
    (negative : Bool) : ∃ n, parts negative (t ++ rest) = .ok (n, rest) ∧
      (n.pointed = false → n.exponent = [] → t = n.whole ∧ WholeText t) := by
  obtain @⟨whole, fraction, exponent, wholeText, fractionText, exponentText⟩ := h
  have stop : ∀ c ∈ rest.head?, c.isDigit = false ∧ c ≠ '.' ∧ c ≠ 'e' ∧ c ≠ 'E' := by
    intro c hc
    obtain ⟨cs, rfl⟩ := List.head?_eq_some_iff.1 hc
    exact ends.head
  have stop' : ∀ c ∈ (exponent ++ rest).head?, c.isDigit = false ∧ c ≠ '.' := by
    intro c hc
    cases exponentText with
    | none => exact ⟨(stop c hc).1, (stop c hc).2.1⟩
    | some letter =>
      cases hc
      rcases letter with rfl | rfl <;> decide
  have stop'' : ∀ c ∈ (fraction ++ (exponent ++ rest)).head?, c.isDigit = false := by
    intro c hc
    cases fractionText with
    | none => exact (stop' c hc).1
    | some =>
      cases hc
      rfl
  have whole' := wholeDigits_eq_ok_iff.2 ⟨rfl, wholeText, stop''⟩
  obtain ⟨found, fraction'⟩ := fractionText.read stop'
  obtain ⟨power, exponent', plain⟩ :=
    exponentText.read fun c hc => ⟨(stop c hc).1, not_or.2 (stop c hc).2.2⟩
  refine ⟨_, parts_eq_ok_iff.2 ⟨whole, _, found, _, power, ?_, fraction', exponent', rfl⟩, ?_⟩
  · rwa [List.append_assoc, List.append_assoc]
  · intro noPoint noExponent
    have noFraction : fraction = [] := by
      cases fractionText with
      | none => rfl
      | some => simp at noPoint
    rw [noFraction, plain noExponent]
    simpa using wholeText

theorem NumberText.skipNumeral {t : List Char} (h : NumberText t) (ends : Delimited rest) :
    skipNumeral (t ++ rest) = .ok rest := by
  obtain ⟨n, read, -⟩ := h.parts ends false
  exact skipNumeral_eq_ok_iff.2 ⟨n, read⟩

/-! ## Numbers of 64 bits -/

theorem digitChar_of_isDigit {d : Char} (h : d.isDigit = true) :
    d.toNat - '0'.toNat < 10 ∧ Nat.digitChar (d.toNat - '0'.toNat) = d := by
  simp only [Char.isDigit, Bool.and_eq_true, decide_eq_true_eq, ge_iff_le,
    UInt32.le_iff_toNat_le] at h
  have range : 48 ≤ d.toNat ∧ d.toNat ≤ 57 := h
  obtain ⟨n, hn, rfl⟩ : ∃ n < 10, d = Char.ofNat (48 + n) :=
    ⟨d.toNat - 48, by omega, by rw [Nat.add_sub_cancel' range.1, Char.ofNat_toNat]⟩
  revert n
  decide

/-- Digits without a leading zero are the digits of their number. -/
theorem toDigits_ofDigitChars (digits : ∀ c ∈ ds, c.isDigit = true) (nonempty : ds ≠ [])
    (noZero : ¬ (ds.head? = some '0' ∧ ds.length ≠ 1)) :
    Nat.toDigits 10 (Nat.ofDigitChars 10 ds 0) = ds := by
  induction ds using List.reverseRecOn with
  | nil => exact absurd rfl nonempty
  | append_singleton ds d ih =>
    obtain ⟨small, same⟩ := digitChar_of_isDigit (digits d (by simp))
    rw [Nat.ofDigitChars_append, Nat.ofDigitChars_cons, Nat.ofDigitChars_nil]
    by_cases single : ds = []
    · subst single
      rw [Nat.ofDigitChars_nil, Nat.mul_zero, Nat.zero_add, Nat.toDigits_of_lt_base small, same]
      rfl
    -- the digits before the last one have no leading zero, so their number is not zero
    have noZero' : ds.head? ≠ some '0' := by
      intro zero
      refine noZero ⟨by rw [List.head?_append_of_ne_nil _ single, zero], ?_⟩
      simpa using single
    have before := ih (fun c hc => digits c (by simp [hc])) single fun zero => noZero' zero.1
    have positive : Nat.ofDigitChars 10 ds 0 ≠ 0 := by
      intro zero
      rw [zero] at before
      exact noZero' (by rw [← before]; rfl)
    generalize Nat.ofDigitChars 10 ds 0 = n at before positive
    rw [Nat.toDigits_of_base_le (by decide) (by omega)]
    have front : (10 * n + (d.toNat - '0'.toNat)) / 10 = n := by omega
    have last : (10 * n + (d.toNat - '0'.toNat)) % 10 = d.toNat - '0'.toNat := by omega
    rw [front, last, before, same]

theorem ofDigitChars_lt_of_accumulate {n : Nat} (small : n < UInt64.size)
    (h : (accumulate n ds).2 = ds.length) : Nat.ofDigitChars 10 ds n < UInt64.size := by
  induction ds generalizing n with
  | nil => exact small
  | cons d ds ih =>
    rw [Nat.ofDigitChars_cons, Nat.mul_comm]
    simp only [accumulate] at h
    split_ifs at h with next
    exact ih next (Nat.succ.inj h)

/-- A number of 64 bits is written by its decimal digits and in no other way. -/
theorem NumberText.eq_toDigits {t rest' : List Char} {n : Numeral} {w : UInt64} (h : NumberText t)
    (ends : Delimited rest) (read : numeral false (t ++ rest) = .ok (n, rest'))
    (word : n.word? = some w) : t = Nat.toDigits 10 w.toNat ∧ rest' = rest := by
  obtain ⟨n', read', plain⟩ := h.parts ends false
  have same := read'.symm.trans (numeral_eq_ok_iff.1 read).1
  cases same
  simp only [Numeral.word?] at word
  split_ifs at word with other all
  cases word
  simp only [not_or, Bool.not_eq_true, not_not] at other
  obtain ⟨rfl, whole⟩ := plain other.2.1 other.2.2
  have small := ofDigitChars_lt_of_accumulate (n := 0) (by decide) all
  refine ⟨?_, rfl⟩
  rw [accumulate_eq small, UInt64.toNat_ofNat_of_lt' small]
  exact (toDigits_ofDigitChars whole.digits whole.nonempty whole.noZero).symm

end

end TeImage.Json
