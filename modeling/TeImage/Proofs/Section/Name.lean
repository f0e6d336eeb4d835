/-
The names of sections. A record keeps a name in eight bytes, filled up with zero bytes at the end,
and its section is named by what is shown for the bytes before these. The name written back is the
field exactly if these bytes are well-formed, and in any case it keeps the zero bytes among them and
every character that stands there (`name_keeps_field`).
-/
import Mathlib.Data.List.DropRight
import TeImage.Proofs.Bytes.Replacement
import TeImage.Section.Record

namespace TeImage

/-- A text in a field of eight bytes, filled up with zero bytes. A longer text is not cut off. -/
def nameField (s : String) : Bytes :=
  Utf8.encode s ++ List.replicate (8 - (Utf8.encode s).length) 0

namespace SectionRecord

variable (r : SectionRecord)

/-! ## The bytes of a name -/

theorem nameBytes_eq : r.nameBytes = r.name.1.rdropWhile (· = 0) := rfl

theorem name_eq : r.name.1 = r.nameBytes ++ List.replicate (8 - r.nameBytes.length) 0 := by
  have parts : r.nameBytes ++ r.name.1.rtakeWhile (· = 0) = r.name.1 :=
    List.rdropWhile_append_rtakeWhile
  have zeros := List.eq_replicate_of_mem (l := r.name.1.rtakeWhile (· = 0)) fun b hb => by
    simpa using List.mem_rtakeWhile_imp hb
  have count : (r.name.1.rtakeWhile (· = 0)).length = 8 - r.nameBytes.length := by
    have whole := congrArg List.length parts
    rw [List.length_append, r.name.2] at whole
    exact Nat.eq_sub_of_add_eq' whole
  rw [← count, ← zeros, parts]

theorem last_nameBytes : r.nameBytes.getLast? ≠ some 0 := by
  intro ends
  have nonempty : r.nameBytes ≠ [] := List.ne_nil_of_mem (List.mem_of_getLast? ends)
  rw [List.getLast?_eq_some_getLast nonempty, Option.some_inj] at ends
  exact List.rdropWhile_last_not (fun b : UInt8 => b = 0) r.name.1 nonempty (decide_eq_true ends)

variable {r}

theorem nameBytes_unique {bs : Bytes} {n : Nat} (h : r.name.1 = bs ++ List.replicate n 0)
    (last : bs.getLast? ≠ some 0) : bs = r.nameBytes := by
  rw [nameBytes_eq, h]
  clear h
  induction n with
  | zero =>
    rw [List.replicate_zero, List.append_nil, eq_comm, List.rdropWhile_eq_self_iff]
    intro nonempty zero
    exact last ((List.getLast?_eq_some_getLast nonempty).trans
      (congrArg some (of_decide_eq_true zero)))
  | succ n ih =>
    rw [List.replicate_succ', ← List.append_assoc, List.rdropWhile_concat_pos _ _ _ (by simp)]
    exact ih

/-! ## The name -/

theorem shows_nameText : Utf8.Shows r.nameBytes r.nameText.toList := Utf8.shows_iff.2 rfl

variable (r) in
theorem last_nameText : r.nameText.toList.getLast? ≠ some '\x00' :=
  mt shows_nameText.last_eq_zero_iff.1 r.last_nameBytes

/-- A name field is written back just from the text that its bytes encode. -/
theorem nameField_eq_iff :
    nameField r.nameText = r.name.1 ↔ r.nameBytes = Utf8.encode r.nameText := by
  constructor
  · intro h
    refine (nameBytes_unique h.symm ?_).symm
    exact mt (Utf8.shows_encode r.nameText).last_eq_zero_iff.2 r.last_nameText
  · intro h
    rw [nameField, ← h, ← name_eq]

/-- The text of a section's name gives the field back, filled up with zero bytes, just if the bytes
before those at its end are well-formed. It does not end in a zero character, and the bytes on
either side of a zero byte among them are shown each on their own. Characters are kept where they
stand, and for what else is there U+FFFD is shown, once for each longest stretch that begins a
character and for each byte that begins none. -/
theorem name_keeps_field (r : SectionRecord) :
    (nameField r.nameText = r.name.1 ↔ r.nameBytes.toByteArray.IsValidUTF8) ∧
    ((∃ n, r.name.1 = r.nameBytes ++ List.replicate n 0) ∧ r.nameBytes.getLast? ≠ some 0) ∧
    r.nameText.toList.getLast? ≠ some '\x00' ∧
    (∀ front back, r.nameBytes = front ++ 0 :: back →
      r.nameText = Utf8.decodeLossy front ++ "\x00" ++ Utf8.decodeLossy back) ∧
    ∀ cs, Utf8.Shows r.nameBytes cs ↔ r.nameText.toList = cs := by
  refine ⟨?_, ⟨⟨_, r.name_eq⟩, r.last_nameBytes⟩, r.last_nameText, fun front back h => ?_,
    fun cs => Utf8.shows_iff⟩
  · rw [nameField_eq_iff, Utf8.isValidUTF8_iff]
    constructor
    · exact fun h => ⟨_, h⟩
    · rintro ⟨s, hs⟩
      have same : r.nameText.toList = s.toList := Utf8.shows_iff.1 (hs ▸ Utf8.shows_encode s)
      rw [hs, String.toList_inj.1 same]
  · rw [nameText, h, Utf8.decodeLossy_append_zero]

/-- A name with a zero byte in it that cuts off a character of three bytes, and one at the end that
cuts off a character of four; and a name of whole characters, one of them in two bytes. -/
theorem name_keeps_field_cut_off :
    let r (name : Block 8) : SectionRecord := ⟨name, 0, 0, 0, 0, 0, 0, 0, 0, ⟨0⟩⟩
    let broken := r ⟨[0x61, 0xE2, 0x82, 0, 0x41, 0xF0, 0x9F, 0], rfl⟩
    let whole := r ⟨[0x61, 0, 0xC3, 0xA9, 0, 0, 0, 0], rfl⟩
    (broken.nameBytes = [0x61, 0xE2, 0x82] ++ 0 :: [0x41, 0xF0, 0x9F] ∧
      broken.nameText = "a\uFFFD\x00A\uFFFD" ∧ ¬ broken.nameBytes.toByteArray.IsValidUTF8) ∧
    whole.nameBytes.toByteArray.IsValidUTF8 ∧ nameField whole.nameText = whole.name.1 := by
  intro r broken whole
  obtain ⟨kept, -, -, interior, -⟩ := name_keeps_field broken
  have bytes : broken.nameBytes = [0x61, 0xE2, 0x82] ++ 0 :: [0x41, 0xF0, 0x9F] := by decide
  have text : broken.nameText = "a\uFFFD\x00A\uFFFD" := (interior _ _ bytes).trans (by decide)
  have lost : nameField broken.nameText ≠ broken.name.1 := by
    rw [text]
    decide
  have valid : whole.nameBytes.toByteArray.IsValidUTF8 :=
    Utf8.isValidUTF8_iff.2 ⟨"a\x00é", by decide⟩
  exact ⟨⟨bytes, text, mt kept.2 lost⟩, valid, (name_keeps_field whole).1.2 valid⟩

end SectionRecord

end TeImage
