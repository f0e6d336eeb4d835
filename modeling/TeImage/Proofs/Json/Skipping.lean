/-
Passing over a value, step by step. `skipWithin` is a machine with a stack of open brackets; its
steps are those of `SkipStep`, each of which takes text away, and a value is passed over if the
steps from it lead to where no bracket is open (`skipValue_eq_ok_iff`). The bound of the definition
is left behind with that.
-/
import Mathlib.Tactic
import TeImage.Proofs.Json.Scanning

namespace TeImage.Json

open Relation

variable {cs rest : List Char}

/-! ## What is left is an end of the text -/

theorem skipBlanks_suffix (cs : List Char) : skipBlanks cs <:+ cs := List.dropWhile_suffix _

theorem skipWord_suffix {word : List Char} (h : skipWord word cs = .ok rest) : rest <:+ cs := by
  fun_induction skipWord word cs with
  | case1 =>
    cases h
    exact List.suffix_refl _
  | case2 => cases h
  | case3 w word cs ih => exact (ih h).trans (List.suffix_cons _ _)
  | case4 => cases h

theorem skipColon_eq_ok_iff : skipColon cs = .ok rest ↔ skipBlanks cs = ':' :: rest := by
  unfold skipColon
  cases found : skipBlanks cs with
  | nil => simp
  | cons c t => by_cases colon : c = ':' <;> simp [colon]

theorem skipName_eq_ok_iff : skipName cs = .ok rest ↔
    ∃ t behind, skipBlanks cs = '"' :: t ∧ skipString t = .ok behind ∧
      skipColon behind = .ok rest := by
  unfold skipName
  cases found : skipBlanks cs with
  | nil => simp
  | cons c t => by_cases quote : c = '"' <;> simp [quote, bind_eq_ok_iff]

theorem someDigits_suffix {ds : List Char} (h : someDigits cs = .ok (ds, rest)) : rest <:+ cs := by
  obtain ⟨rfl, -⟩ := someDigits_eq_ok_iff.1 h
  exact List.suffix_append ds rest

theorem fractionDigits_suffix {ds : List Char} (h : fractionDigits cs = .ok (ds, rest)) :
    rest <:+ cs := by
  rcases fractionDigits_eq_ok_iff.1 h with ⟨-, rfl, -⟩ | ⟨t, rfl, read⟩
  · exact List.suffix_refl _
  · exact (someDigits_suffix read).trans (List.suffix_cons _ _)

theorem signed_suffix (cs : List Char) : (signed cs).2 <:+ cs := by
  unfold signed
  split
  · exact List.suffix_cons _ _
  · exact List.suffix_cons _ _
  · exact List.suffix_refl _

theorem exponentDigits_suffix {found : Bool × List Char}
    (h : exponentDigits cs = .ok (found, rest)) : rest <:+ cs := by
  rcases exponentDigits_eq_ok_iff.1 h with ⟨-, rfl, -⟩ | ⟨e, t, -, rfl, -, read⟩
  · exact List.suffix_refl _
  · exact (someDigits_suffix read).trans ((signed_suffix t).trans (List.suffix_cons _ _))

/-- A number takes at least a digit. -/
theorem skipNumeral_shrinks (h : skipNumeral cs = .ok rest) : rest.length < cs.length := by
  obtain ⟨n, read⟩ := skipNumeral_eq_ok_iff.1 h
  obtain ⟨whole, cs', fraction, cs'', exponent, whole', fraction', exponent', -⟩ :=
    parts_eq_ok_iff.1 read
  obtain ⟨rfl, text, -⟩ := wholeDigits_eq_ok_iff.1 whole'
  have behind := (exponentDigits_suffix exponent').trans (fractionDigits_suffix fraction')
  have some' := List.length_pos_iff.2 text.nonempty
  have short := behind.length_le
  rw [List.length_append]
  omega

theorem skipString_suffix (h : skipString cs = .ok rest) : rest <:+ cs := by
  obtain ⟨text, rfl, -⟩ := skipString_eq_ok_iff.1 h
  exact (List.suffix_cons _ _).trans (List.suffix_append text _)

theorem length_of_skipBlanks {c : Char} {t : List Char} (h : skipBlanks cs = c :: t) :
    t.length < cs.length := by
  have short := (skipBlanks_suffix cs).length_le
  rwa [h] at short

theorem skipName_shrinks (h : skipName cs = .ok rest) : rest.length < cs.length := by
  obtain ⟨t, behind, found, string, colon⟩ := skipName_eq_ok_iff.1 h
  have name := length_of_skipBlanks found
  have value := length_of_skipBlanks (skipColon_eq_ok_iff.1 colon)
  have between := (skipString_suffix string).length_le
  omega

theorem length_of_skipScalar {c : Char} (h : skipScalar c cs = .ok rest) :
    rest.length ≤ cs.length := by
  unfold skipScalar at h
  split_ifs at h
  · exact (skipWord_suffix h).length_le
  · exact (skipWord_suffix h).length_le
  · exact (skipWord_suffix h).length_le
  · exact (skipNumeral_shrinks h).le
  · exact Nat.le_of_lt_succ (skipNumeral_shrinks h)
  · exact (skipString_suffix h).length_le

/-! ## Steps -/

/-- Where passing over a value stands: what it waits for, the open brackets and the text left. -/
abbrev SkipPoint := SkipState × List Bracket × List Char

inductive SkipStep : SkipPoint → SkipPoint → Prop where
  | value {opened : List Bracket} {cs t : List Char} {c : Char} {q : SkipPoint}
      (found : skipBlanks cs = c :: t) (opening : skipOpening opened c t = .ok q) :
      SkipStep (.value, opened, cs) q
  | close {state : SkipState} {bracket : Bracket} {opened : List Bracket} {cs t : List Char}
      (waits : state ≠ .value) (found : skipBlanks cs = bracket.closing :: t) :
      SkipStep (state, bracket :: opened, cs) (.next, opened, t)
  | first {bracket : Bracket} {opened : List Bracket} {cs t : List Char} {c : Char} {q : SkipPoint}
      (found : skipBlanks cs = c :: t) (other : c ≠ bracket.closing)
      (item : skipItem bracket opened c t = .ok q) : SkipStep (.first, bracket :: opened, cs) q
  | nextElement {opened : List Bracket} {cs t : List Char} (found : skipBlanks cs = ',' :: t) :
      SkipStep (.next, .square :: opened, cs) (.value, .square :: opened, t)
  | nextMember {opened : List Bracket} {cs t rest : List Char} (found : skipBlanks cs = ',' :: t)
      (name : skipName t = .ok rest) :
      SkipStep (.next, .curly :: opened, cs) (.value, .curly :: opened, rest)

theorem length_of_skipOpening {opened : List Bracket} {c : Char} {q : SkipPoint}
    (h : skipOpening opened c cs = .ok q) : q.2.2.length ≤ cs.length := by
  unfold skipOpening at h
  split_ifs at h
  · cases h
    exact le_rfl
  · cases h
    exact le_rfl
  · obtain ⟨rest, passed, same⟩ := bind_eq_ok_iff.1 h
    cases same
    exact length_of_skipScalar passed

theorem length_of_skipItem {bracket : Bracket} {opened : List Bracket} {c : Char} {q : SkipPoint}
    (h : skipItem bracket opened c cs = .ok q) : q.2.2.length ≤ cs.length := by
  cases bracket with
  | square => exact length_of_skipOpening h
  | curly =>
    obtain ⟨rest, name, same⟩ := bind_eq_ok_iff.1 h
    cases same
    exact Nat.le_of_lt_succ (skipName_shrinks name)

/-- Every step takes at least a character. -/
theorem SkipStep.shrinks {q q' : SkipPoint} (h : SkipStep q q') :
    q'.2.2.length < q.2.2.length := by
  cases h with
  | value found opening =>
    exact (length_of_skipOpening opening).trans_lt (length_of_skipBlanks found)
  | close _ found => exact length_of_skipBlanks found
  | first found _ item => exact (length_of_skipItem item).trans_lt (length_of_skipBlanks found)
  | nextElement found => exact length_of_skipBlanks found
  | nextMember found name => exact (skipName_shrinks name).trans (length_of_skipBlanks found)

/-- The first step, unless nothing is waited for. -/
theorem skipWithin_cons_eq_ok_iff {x : Char} {bound : List Char} {state : SkipState}
    {opened : List Bracket} : skipWithin (x :: bound) state opened cs = .ok rest ↔
      (state ≠ .value ∧ opened = [] ∧ rest = cs) ∨
      ∃ q, SkipStep (state, opened, cs) q ∧ skipWithin bound q.1 q.2.1 q.2.2 = .ok rest := by
  constructor
  · intro h
    match state, opened with
    | .first, [] | .next, [] =>
      cases h
      exact .inl ⟨nofun, rfl, rfl⟩
    | .value, opened =>
      simp only [skipWithin] at h
      split at h
      · cases h
      · next found =>
        obtain ⟨q, opening, h⟩ := bind_eq_ok_iff.1 h
        exact .inr ⟨q, .value found opening, h⟩
    | .first, bracket :: opened =>
      simp only [skipWithin] at h
      split at h
      · cases h
      · next found =>
        split_ifs at h with closing
        · exact .inr ⟨_, .close nofun (closing ▸ found), h⟩
        · obtain ⟨q, item, h⟩ := bind_eq_ok_iff.1 h
          exact .inr ⟨q, .first found closing item, h⟩
    | .next, bracket :: opened =>
      simp only [skipWithin] at h
      split at h
      · cases h
      · next found =>
        split_ifs at h with closing comma
        · exact .inr ⟨_, .close nofun (closing ▸ found), h⟩
        · subst comma
          split at h
          · exact .inr ⟨_, .nextElement found, h⟩
          · obtain ⟨behind, name, h⟩ := bind_eq_ok_iff.1 h
            exact .inr ⟨_, .nextMember found name, h⟩
  · rintro (⟨waits, rfl, rfl⟩ | ⟨q, step, h⟩)
    · cases state with
      | value => exact absurd rfl waits
      | first | next => rfl
    cases step with
    | value found opening =>
      simp only [skipWithin, found, opening, bind, Except.bind, h]
    | @close _ bracket _ _ _ waits found =>
      cases state with
      | value => exact absurd rfl waits
      | first | next =>
        simp only [skipWithin, found, if_true, h]
    | first found other item =>
      simp only [skipWithin, found, other, item, if_false, bind, Except.bind, h]
    | nextElement found =>
      simp only [skipWithin, found]
      exact h
    | nextMember found name =>
      simp only [skipWithin, found, name]
      exact h

theorem skipWithin_eq_ok_iff {bound : List Char} {state : SkipState} {opened : List Bracket}
    (room : cs.length < bound.length) : skipWithin bound state opened cs = .ok rest ↔
      ∃ state', state' ≠ .value ∧
        ReflTransGen SkipStep (state, opened, cs) (state', [], rest) := by
  -- a step takes one from the bound and at least one from the text, so the bound is never missing
  induction bound generalizing state opened cs with
  | nil => cases room
  | cons x bound ih =>
    rw [skipWithin_cons_eq_ok_iff]
    constructor
    · rintro (⟨waits, rfl, rfl⟩ | ⟨q, step, h⟩)
      · exact ⟨state, waits, .refl⟩
      · have less := step.shrinks
        obtain ⟨state', waits, steps⟩ := (ih (by simp at room less ⊢; omega)).1 h
        exact ⟨state', waits, .head step steps⟩
    · rintro ⟨state', waits, steps⟩
      rcases steps.cases_head with same | ⟨q, step, steps⟩
      · cases same
        exact .inl ⟨waits, rfl, rfl⟩
      · have less := step.shrinks
        exact .inr ⟨q, step, (ih (by simp at room less ⊢; omega)).2 ⟨state', waits, steps⟩⟩

theorem skipValue_eq_ok_iff : skipValue cs = .ok rest ↔
    ∃ state, state ≠ .value ∧ ReflTransGen SkipStep (.value, [], cs) (state, [], rest) :=
  skipWithin_eq_ok_iff (by simp)

end TeImage.Json
