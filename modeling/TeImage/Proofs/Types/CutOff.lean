/-
Type definitions whose text is cut off. The readers of types, fields, kinds and definitions end with
a quote or a bracket of their own (`selfEnding_typeRef` and what follows from it), so what they have
read from a text does not change when the text goes on. A start of a file of definitions that is
itself accepted is therefore the whole of it, up to blanks (`no_text_is_cut_off`).
-/
import Mathlib.Tactic
import TeImage.Proofs.Json.Extension
import TeImage.Proofs.Types.Text

namespace TeImage

namespace TypeText

open Json TypeDirectory

/-! ## Types, fields, kinds and definitions -/

/-- Types end by themselves wherever there is less room than `room`. -/
def RefsEnd (room : Nat) : Prop := ∀ left < room, SelfEnding (typeRef left)

section

variable {room : Nat} (ih : RefsEnd room)

include ih

theorem selfEnding_field : SelfEnding (field room) := by
  rw [field, fieldBy]
  refine SelfEnding.mapped (selfEnding_record fun r hr => ?_) _
  obtain ⟨left, rfl, rfl⟩ := exists_of_mem_inside hr
  exact (ih left (by omega)).settled

theorem selfEnding_fields : SelfEnding (fields room) := by
  refine selfEnding_list fun r hr => ?_
  obtain ⟨left, rfl, rfl⟩ := exists_of_mem_inside hr
  exact (selfEnding_field fun left' less => ih left' (by omega)).settled

end

/-- The count of an array may end with the text, the array does not. -/
theorem selfEnding_typeRef (room : Nat) : SelfEnding (typeRef room) := by
  induction room using Nat.strong_induction_on with
  | _ room ih =>
    rw [typeRef_eq]
    refine selfEnding_choice fun open' name r known => SelfEnding.settled ?_
    have least : 0 < room := Nat.pos_of_ne_zero (by simpa using open')
    rcases refVariant_loaded known with ⟨-, rfl⟩ | ⟨-, rfl⟩ | ⟨-, left, rfl, rfl⟩ | ⟨-, rfl⟩
    · exact selfEnding_text.mapped _
    · refine SelfEnding.mapped (selfEnding_pair fun p hp => ?_) _
      obtain ⟨left, below, rfl⟩ := exists_of_mem_inside hp
      exact ⟨(ih left (by omega)).settled, settled_count⟩
    · exact (ih left (by omega)).mapped _
    · have less : RefsEnd (room - 1) := fun left below => ih left (by omega)
      exact (selfEnding_fields less).mapped _

theorem refsEnd (room : Nat) : RefsEnd room := fun left _ => selfEnding_typeRef left

theorem selfEnding_kind (room : Nat) : SelfEnding (kind room) := by
  refine selfEnding_choice fun _ name r known => SelfEnding.settled ?_
  unfold kindVariant at known
  split at known
  · cases known
    exact (selfEnding_fields (refsEnd _)).mapped _
  · cases known
    exact (selfEnding_fields (refsEnd _)).mapped _
  · cases known
    exact (selfEnding_typeRef _).mapped _
  · cases known

theorem selfEnding_typeDef (room : Nat) : SelfEnding (typeDef room) := by
  refine SelfEnding.mapped (selfEnding_record fun r hr => ?_) _
  obtain ⟨left, rfl, rfl⟩ := exists_of_mem_inside hr
  exact (selfEnding_kind left).settled

theorem selfEnding_typeDefs (room : Nat) : SelfEnding (typeDefs room) := by
  refine selfEnding_list fun r hr => ?_
  obtain ⟨left, rfl, rfl⟩ := exists_of_mem_inside hr
  exact (selfEnding_typeDef left).settled

/-! ## Texts and files -/

/-- Space, tab, line feed and carriage return. -/
theorem blanks_iff {cs : List Char} :
    Blanks cs ↔ ∀ c ∈ cs, c = ' ' ∨ c = '\t' ∨ c = '\n' ∨ c = '\r' := by
  simp only [Blanks, isBlank, Bool.or_eq_true, decide_eq_true_eq, or_assoc]

/-- A start of a text that is read like the whole text lacks nothing but blanks behind it, and holds
the same value: definitions, a definition, or a type. So a file of definitions that was cut off is
never read as a shorter one. -/
theorem no_text_is_cut_off :
    (∀ (u v : String) (defs defs' : List TypeDef), parseTypeDefs u = .ok defs →
      parseTypeDefs (u ++ v) = .ok defs' →
      (∀ c ∈ v.toList, c = ' ' ∨ c = '\t' ∨ c = '\n' ∨ c = '\r') ∧ defs = defs') ∧
    (∀ (u v : String) (t t' : TypeRef), parseTypeRef u = .ok t → parseTypeRef (u ++ v) = .ok t' →
      (∀ c ∈ v.toList, c = ' ' ∨ c = '\t' ∨ c = '\n' ∨ c = '\r') ∧ t = t') ∧
    (∀ (u v : String) (d d' : TypeDef), parseTypeDef u = .ok d → parseTypeDef (u ++ v) = .ok d' →
      (∀ c ∈ v.toList, c = ' ' ∨ c = '\t' ∨ c = '\n' ∨ c = '\r') ∧ d = d') ∧
    ∀ (content more : Bytes) (defs defs' : List TypeDef), definitionsOf (.ok content) = .ok defs →
      definitionsOf (.ok (content ++ more)) = .ok defs' →
      (∀ b ∈ more, b = 0x20 ∨ b = 0x09 ∨ b = 0x0A ∨ b = 0x0D) ∧ defs = defs' := by
  refine ⟨?_, ?_, ?_, ?_⟩
  · intro u v defs defs' short long
    rw [← blanks_iff]
    exact (selfEnding_typeDefs maxNesting).blanks_of_parse short long
  · intro u v t t' short long
    rw [← blanks_iff]
    exact (selfEnding_typeRef maxNesting).blanks_of_parse short long
  · intro u v d d' short long
    rw [← blanks_iff]
    exact (selfEnding_typeDef maxNesting).blanks_of_parse short long
  · intro content more defs defs' short long
    obtain ⟨u, bytes, short'⟩ := definitionsOf_eq_ok_iff.1 short
    obtain ⟨w, bytes', long'⟩ := definitionsOf_eq_ok_iff.1 long
    cases bytes
    obtain ⟨v, rfl, rfl⟩ := Utf8.exists_of_append_eq_encode (Except.ok.inj bytes')
    obtain ⟨blanks, same⟩ := (selfEnding_typeDefs maxNesting).blanks_of_parse short' long'
    refine ⟨fun b hb => ?_, same⟩
    obtain ⟨c, hc, written⟩ := List.mem_flatMap.1 hb
    rcases blanks_iff.1 blanks c hc with rfl | rfl | rfl | rfl
    · exact .inl (List.mem_singleton.1 written)
    · exact .inr (.inl (List.mem_singleton.1 written))
    · exact .inr (.inr (.inl (List.mem_singleton.1 written)))
    · exact .inr (.inr (.inr (List.mem_singleton.1 written)))

/-- One definition with a member that is passed over, up to a number. -/
def aliasText : String := "[\x7b\"name\":\"T\",\"kind\":\x7b\"alias\":\"u8\"\x7d,\"n\":[1]\x7d]"

theorem no_text_is_cut_off_line_break :
    (parseTypeDefs aliasText = .ok [⟨"T", .aliasOf .u8⟩] ∧
      parseTypeDefs (aliasText ++ "\r\n") = .ok [⟨"T", .aliasOf .u8⟩] ∧
      ∀ c ∈ "\r\n".toList, c = ' ' ∨ c = '\t' ∨ c = '\n' ∨ c = '\r') ∧
    (parseTypeRef "\x7b\"pointer\":\"u8\"\x7d" = .ok (.pointer .u8) ∧
      parseTypeRef ("\x7b\"pointer\":\"u8\"\x7d" ++ " ") = .ok (.pointer .u8) ∧
      ∀ c ∈ " ".toList, c = ' ' ∨ c = '\t' ∨ c = '\n' ∨ c = '\r') ∧
    (parseTypeDef "[\"T\",\x7b\"alias\":\"u8\"\x7d]" = .ok ⟨"T", .aliasOf .u8⟩ ∧
      parseTypeDef ("[\"T\",\x7b\"alias\":\"u8\"\x7d]" ++ "\t") = .ok ⟨"T", .aliasOf .u8⟩ ∧
      ∀ c ∈ "\t".toList, c = ' ' ∨ c = '\t' ∨ c = '\n' ∨ c = '\r') ∧
    definitionsOf (.ok (Utf8.encode aliasText)) = .ok [⟨"T", .aliasOf .u8⟩] ∧
      definitionsOf (.ok (Utf8.encode aliasText ++ [0x0D, 0x0A])) = .ok [⟨"T", .aliasOf .u8⟩] ∧
      ∀ b ∈ ([0x0D, 0x0A] : Bytes), b = 0x20 ∨ b = 0x09 ∨ b = 0x0A ∨ b = 0x0D := by
  obtain ⟨definitions, ref, definition, file⟩ := no_text_is_cut_off
  have short : parseTypeDefs aliasText = .ok [⟨"T", .aliasOf .u8⟩] := by cbv
  have long : parseTypeDefs (aliasText ++ "\r\n") = .ok [⟨"T", .aliasOf .u8⟩] := by cbv
  have shortRef : parseTypeRef "\x7b\"pointer\":\"u8\"\x7d" = .ok (.pointer .u8) := by cbv
  have longRef : parseTypeRef ("\x7b\"pointer\":\"u8\"\x7d" ++ " ") = .ok (.pointer .u8) := by cbv
  have shortDef : parseTypeDef "[\"T\",\x7b\"alias\":\"u8\"\x7d]" = .ok ⟨"T", .aliasOf .u8⟩ := by
    cbv
  have longDef : parseTypeDef ("[\"T\",\x7b\"alias\":\"u8\"\x7d]" ++ "\t") =
      .ok ⟨"T", .aliasOf .u8⟩ := by cbv
  have shortFile := definitionsOf_eq_ok_iff.2 ⟨_, rfl, short⟩
  have bytes : Utf8.encode aliasText ++ [0x0D, 0x0A] = Utf8.encode (aliasText ++ "\r\n") := by
    rw [Utf8.encode, Utf8.encode, String.toList_append, List.flatMap_append]
    rfl
  have longFile : definitionsOf (.ok (Utf8.encode aliasText ++ [0x0D, 0x0A])) =
      .ok [⟨"T", .aliasOf .u8⟩] := definitionsOf_eq_ok_iff.2 ⟨_, by rw [bytes], long⟩
  exact ⟨⟨short, long, (definitions _ _ _ _ short long).1⟩,
    ⟨shortRef, longRef, (ref _ _ _ _ shortRef longRef).1⟩,
    ⟨shortDef, longDef, (definition _ _ _ _ shortDef longDef).1⟩,
    shortFile, longFile, (file _ _ _ _ shortFile longFile).1⟩

end TypeText

end TeImage
