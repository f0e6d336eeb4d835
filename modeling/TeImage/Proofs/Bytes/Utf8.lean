/-
The decoder of texts, against the table of the encoding.

`Writes c bs` is a row of that table for the character `c`: the decoder's ranges for the bytes
behind a lead byte are met by the bytes of a row and by nothing else. So a byte string is decoded
exactly if it is the encoding of a text, and to that text (`decode?_eq_some_iff`).
-/
import Mathlib.Tactic
import TeImage.Bytes.Utf8

namespace TeImage.Utf8

/-! ## Characters in bytes -/

/-- The bytes of a character, by how many bits it takes: seven, eleven, sixteen or more. A lead byte
carries the upper bits, each byte behind it six more. -/
inductive Writes : Char → Bytes → Prop
  | one {c : Char} {b : UInt8} : c.toNat < 0x80 → b.toNat = c.toNat → Writes c [b]
  | two {c : Char} {b₀ b₁ : UInt8} : 0x80 ≤ c.toNat → c.toNat < 0x800 →
      b₀.toNat = 0xC0 + c.toNat / 64 → b₁.toNat = 0x80 + c.toNat % 64 → Writes c [b₀, b₁]
  | three {c : Char} {b₀ b₁ b₂ : UInt8} : 0x800 ≤ c.toNat → c.toNat < 0x10000 →
      b₀.toNat = 0xE0 + c.toNat / 4096 → b₁.toNat = 0x80 + c.toNat / 64 % 64 →
      b₂.toNat = 0x80 + c.toNat % 64 → Writes c [b₀, b₁, b₂]
  | four {c : Char} {b₀ b₁ b₂ b₃ : UInt8} : 0x10000 ≤ c.toNat →
      b₀.toNat = 0xF0 + c.toNat / 262144 → b₁.toNat = 0x80 + c.toNat / 4096 % 64 →
      b₂.toNat = 0x80 + c.toNat / 64 % 64 → b₃.toNat = 0x80 + c.toNat % 64 →
      Writes c [b₀, b₁, b₂, b₃]

theorem toNat_valid (c : Char) : c.toNat < 0xD800 ∨ (0xDFFF < c.toNat ∧ c.toNat < 0x110000) :=
  c.valid

theorem writes_utf8EncodeChar (c : Char) : Writes c (String.utf8EncodeChar c) := by
  have valid := toNat_valid c
  have value : c.val.toNat = c.toNat := rfl
  simp only [String.utf8EncodeChar, value]
  split
  · exact .one (by omega) (by rw [UInt8.toNat_ofNat']; omega)
  split
  · exact .two (by omega) (by omega) (by rw [UInt8.toNat_ofNat']; omega)
      (by rw [UInt8.toNat_ofNat']; omega)
  split
  · exact .three (by omega) (by omega) (by rw [UInt8.toNat_ofNat']; omega)
      (by rw [UInt8.toNat_ofNat']; omega) (by rw [UInt8.toNat_ofNat']; omega)
  · exact .four (by omega) (by rw [UInt8.toNat_ofNat']; omega)
      (by rw [UInt8.toNat_ofNat']; omega) (by rw [UInt8.toNat_ofNat']; omega)
      (by rw [UInt8.toNat_ofNat']; omega)

theorem Writes.unique {c : Char} {bs bs' : Bytes} (h : Writes c bs) (h' : Writes c bs') :
    bs = bs' := by
  cases h <;> cases h' <;>
    first | omega | simp only [List.cons.injEq, ← UInt8.toNat_inj, and_true, *]

theorem Writes.ne_nil {c : Char} {bs : Bytes} (h : Writes c bs) : bs ≠ [] := by
  cases h <;> exact List.cons_ne_nil _ _

theorem Writes.inj {c c' : Char} {bs : Bytes} (h : Writes c bs) (h' : Writes c' bs) : c = c' := by
  apply Char.toNat_inj.1
  cases h <;> cases h' <;> omega

/-! ## The ranges behind a lead byte -/

theorem mem_iff (low high b : UInt8) :
    (ByteRange.mk low high).Mem b ↔ low.toNat ≤ b.toNat ∧ b.toNat ≤ high.toNat := by
  rw [ByteRange.Mem, UInt8.le_iff_toNat_le, UInt8.le_iff_toNat_le]

theorem following_mem_iff (b : UInt8) : following.Mem b ↔ 0x80 ≤ b.toNat ∧ b.toNat ≤ 0xBF :=
  mem_iff 0x80 0xBF b

/-- Where the byte behind a lead byte must lie, if any follows. -/
def second (lead : UInt8) : ByteRange where
  low := if lead = 0xE0 then 0xA0 else if lead = 0xF0 then 0x90 else 0x80
  high := if lead = 0xED then 0x9F else if lead = 0xF4 then 0x8F else 0xBF

theorem second_mem_iff (lead b : UInt8) : (second lead).Mem b ↔
    following.Mem b ∧ (lead.toNat = 0xE0 → 0xA0 ≤ b.toNat) ∧
      (lead.toNat = 0xED → b.toNat ≤ 0x9F) ∧ (lead.toNat = 0xF0 → 0x90 ≤ b.toNat) ∧
      (lead.toNat = 0xF4 → b.toNat ≤ 0x8F) := by
  have low : (second lead).low.toNat =
      if lead.toNat = 0xE0 then 0xA0 else if lead.toNat = 0xF0 then 0x90 else 0x80 := by
    simp only [second, ← UInt8.toNat_inj, apply_ite UInt8.toNat, UInt8.reduceToNat]
  have high : (second lead).high.toNat =
      if lead.toNat = 0xED then 0x9F else if lead.toNat = 0xF4 then 0x8F else 0xBF := by
    simp only [second, ← UInt8.toNat_inj, apply_ite UInt8.toNat, UInt8.reduceToNat]
  rw [following_mem_iff, mem_iff, low, high]
  split_ifs <;> omega

theorem followers_eq (lead : UInt8) : followers lead =
    if lead.toNat ≤ 0x7F then some []
    else if lead.toNat < 0xC2 then none
    else if lead.toNat ≤ 0xDF then some [following]
    else if lead.toNat ≤ 0xEF then some [second lead, following]
    else if lead.toNat ≤ 0xF4 then some [second lead, following, following]
    else none := by
  by_cases h₁ : lead = 0xE0
  · subst h₁; rfl
  by_cases h₂ : lead = 0xED
  · subst h₂; rfl
  by_cases h₃ : lead = 0xF0
  · subst h₃; rfl
  by_cases h₄ : lead = 0xF4
  · subst h₄; rfl
  have ordinary : second lead = following := by
    rw [second, if_neg h₁, if_neg h₂, if_neg h₃, if_neg h₄]
    rfl
  have last : lead.toNat ≤ 0xF4 ↔ lead.toNat ≤ 0xF3 := by
    have : lead.toNat ≠ 0xF4 := fun h => h₄ (UInt8.toNat_inj.1 h)
    omega
  rw [ordinary, followers, if_neg h₁, if_neg h₂, if_neg h₃, if_neg h₄]
  simp only [UInt8.le_iff_toNat_le, UInt8.lt_iff_toNat_lt, UInt8.reduceToNat, last]

/-- What must follow a lead byte, by its value: the value tells how many bytes, and `second` what is
special about four of the values. -/
theorem followers_eq_some_iff {lead : UInt8} {rs : List ByteRange} : followers lead = some rs ↔
    (lead.toNat ≤ 0x7F ∧ rs = []) ∨
    (0xC2 ≤ lead.toNat ∧ lead.toNat ≤ 0xDF ∧ rs = [following]) ∨
    (0xE0 ≤ lead.toNat ∧ lead.toNat ≤ 0xEF ∧ rs = [second lead, following]) ∨
    (0xF0 ≤ lead.toNat ∧ lead.toNat ≤ 0xF4 ∧ rs = [second lead, following, following]) := by
  rw [followers_eq]
  grind

/-! ## Segments -/

theorem toNat_ofNat {n : Nat} (h : n < 0xD800 ∨ 0xDFFF < n ∧ n < 0x110000) :
    (Char.ofNat n).toNat = n := by
  have valid : n.isValidChar := h
  rw [Char.ofNat, dif_pos valid]
  rfl

/-- What fits the ranges behind a lead byte is a row of the table, for the character that the
decoder makes of it. -/
theorem writes_character {lead : UInt8} {rs : List ByteRange} {front : Bytes}
    (hrs : followers lead = some rs) (hfront : List.Forall₂ ByteRange.Mem rs front) :
    Writes (character lead front) (lead :: front) := by
  rcases followers_eq_some_iff.1 hrs with ⟨high, rfl⟩ | ⟨low, high, rfl⟩ | ⟨low, high, rfl⟩ |
    ⟨low, high, rfl⟩
  · cases hfront
    have value : (character lead []).toNat = _ := toNat_ofNat (n := lead.toNat) (by omega)
    exact .one (by omega) value.symm
  · rcases hfront with _ | ⟨h₁, ⟨⟩⟩
    rename_i b₁
    rw [following_mem_iff] at h₁
    have value : (character lead [b₁]).toNat = _ :=
      toNat_ofNat (n := lead.toNat % 32 * 64 + b₁.toNat % 64) (by omega)
    exact .two (by omega) (by omega) (by omega) (by omega)
  · rcases hfront with _ | ⟨h₁, _ | ⟨h₂, ⟨⟩⟩⟩
    rename_i b₁ b₂
    rw [second_mem_iff, following_mem_iff] at h₁
    rw [following_mem_iff] at h₂
    -- `second` keeps the value above the two-byte ones and off the surrogates
    have value : (character lead [b₁, b₂]).toNat = _ := toNat_ofNat
      (n := (lead.toNat % 16 * 64 + b₁.toNat % 64) * 64 + b₂.toNat % 64) (by omega)
    exact .three (by omega) (by omega) (by omega) (by omega) (by omega)
  · rcases hfront with _ | ⟨h₁, _ | ⟨h₂, _ | ⟨h₃, ⟨⟩⟩⟩⟩
    rename_i b₁ b₂ b₃
    rw [second_mem_iff, following_mem_iff] at h₁
    rw [following_mem_iff] at h₂ h₃
    have value : (character lead [b₁, b₂, b₃]).toNat = _ := toNat_ofNat
      (n := ((lead.toNat % 8 * 64 + b₁.toNat % 64) * 64 + b₂.toNat % 64) * 64 + b₃.toNat % 64)
      (by omega)
    exact .four (by omega) (by omega) (by omega) (by omega) (by omega)

/-- A row of the table fits the ranges behind its lead byte. -/
theorem Writes.followers {c : Char} {lead : UInt8} {front : Bytes} (h : Writes c (lead :: front)) :
    ∃ rs, followers lead = some rs ∧ List.Forall₂ ByteRange.Mem rs front := by
  have valid := toNat_valid c
  cases h with
  | one h h₀ => exact ⟨_, followers_eq_some_iff.2 (.inl ⟨by omega, rfl⟩), .nil⟩
  | two h h' h₀ h₁ =>
    refine ⟨_, followers_eq_some_iff.2 (.inr (.inl ⟨by omega, by omega, rfl⟩)), .cons ?_ .nil⟩
    rw [following_mem_iff]
    omega
  | three h h' h₀ h₁ h₂ =>
    refine ⟨_, followers_eq_some_iff.2 (.inr (.inr (.inl ⟨by omega, by omega, rfl⟩))),
      .cons ?_ (.cons ?_ .nil)⟩
    · rw [second_mem_iff, following_mem_iff]
      omega
    · rw [following_mem_iff]
      omega
  | four h h₀ h₁ h₂ h₃ =>
    refine ⟨_, followers_eq_some_iff.2 (.inr (.inr (.inr ⟨by omega, by omega, rfl⟩))),
      .cons ?_ (.cons ?_ (.cons ?_ .nil))⟩
    · rw [second_mem_iff, following_mem_iff]
      omega
    · rw [following_mem_iff]
      omega
    · rw [following_mem_iff]
      omega

theorem fitting_append {rs : List ByteRange} {front : Bytes}
    (h : List.Forall₂ ByteRange.Mem rs front) (rest : Bytes) :
    fitting rs (front ++ rest) = front.length := by
  induction h with
  | nil => rfl
  | cons hb _ ih => rw [List.cons_append, fitting, if_pos hb, ih, List.length_cons]

theorem forall₂_of_fitting {rs : List ByteRange} {bs : Bytes} (h : fitting rs bs = rs.length) :
    List.Forall₂ ByteRange.Mem rs (bs.take rs.length) := by
  induction rs generalizing bs with
  | nil => exact .nil
  | cons r rs ih =>
    cases bs with
    | nil => cases h
    | cons b bs =>
      rw [fitting] at h
      split at h
      · rename_i hb
        exact .cons hb (ih (Nat.succ.inj h))
      · cases h

theorem segment_of_writes {c : Char} {lead : UInt8} {front : Bytes}
    (h : Writes c (lead :: front)) (rest : Bytes) :
    segment lead (front ++ rest) = (some c, front.length) := by
  obtain ⟨rs, hrs, hfront⟩ := h.followers
  have char : character lead front = c := (writes_character hrs hfront).inj h
  rw [segment, hrs]
  simp only [fitting_append hfront, hfront.length_eq, if_pos, List.take_left, char]

theorem writes_of_segment {c : Char} {lead : UInt8} {bs : Bytes} {count : Nat}
    (h : segment lead bs = (some c, count)) : Writes c (lead :: bs.take count) := by
  rw [segment] at h
  split at h
  · cases h
  · rename_i rs hrs
    rw [Prod.mk.injEq] at h
    obtain ⟨found, rfl⟩ := h
    split at found
    · rename_i full
      cases found
      exact full ▸ writes_character hrs (forall₂_of_fitting full)
    · cases found

/-! ## Texts -/

theorem segmentsAfter_eq (skip : Nat) (bs : Bytes) :
    segmentsAfter skip bs = segments (bs.drop skip) := by
  induction skip generalizing bs with
  | zero => rfl
  | succ skip ih =>
    cases bs with
    | nil => rfl
    | cons b bs => exact ih bs

theorem segments_cons (lead : UInt8) (bs : Bytes) : segments (lead :: bs) =
    (segment lead bs).1 :: segments (bs.drop (segment lead bs).2) := by
  rw [← segmentsAfter_eq]
  rfl

theorem segments_of_writes {c : Char} {bs : Bytes} (h : Writes c bs) (rest : Bytes) :
    segments (bs ++ rest) = some c :: segments rest := by
  cases bs with
  | nil => cases h
  | cons lead front =>
    rw [List.cons_append, segments_cons, segment_of_writes h, List.drop_left]

theorem segments_flatMap_append (cs : List Char) (rest : Bytes) :
    segments (cs.flatMap String.utf8EncodeChar ++ rest) = cs.map some ++ segments rest := by
  induction cs with
  | nil => rfl
  | cons c cs ih =>
    rw [List.flatMap_cons, List.append_assoc, segments_of_writes (writes_utf8EncodeChar c), ih,
      List.map_cons, List.cons_append]

theorem segments_flatMap (cs : List Char) :
    segments (cs.flatMap String.utf8EncodeChar) = cs.map some := by
  have whole := segments_flatMap_append cs []
  rwa [List.append_nil, show segments [] = [] from rfl, List.append_nil] at whole

theorem eq_flatMap_of_segments {bs : Bytes} {cs : List Char} (h : segments bs = cs.map some) :
    bs = cs.flatMap String.utf8EncodeChar := by
  induction cs generalizing bs with
  | nil =>
    cases bs with
    | nil => rfl
    | cons lead bs => rw [segments_cons] at h; cases h
  | cons c cs ih =>
    cases bs with
    | nil => cases h
    | cons lead bs =>
      rw [segments_cons, List.map_cons, List.cons.injEq] at h
      have front := writes_of_segment (Prod.ext h.1 rfl)
      rw [List.flatMap_cons, ← ih h.2, ← front.unique (writes_utf8EncodeChar c), List.cons_append,
        List.take_append_drop]

/-- The well-formed byte strings are the texts in bytes. -/
theorem isValidUTF8_iff {bs : Bytes} : bs.toByteArray.IsValidUTF8 ↔ ∃ s, bs = encode s := by
  constructor
  · rintro ⟨cs, h⟩
    refine ⟨String.ofList cs, ?_⟩
    rw [encode, String.toList_ofList]
    exact List.toByteArray_inj.1 h
  · rintro ⟨s, rfl⟩
    exact ⟨s.toList, rfl⟩

theorem mapM_id_eq_some_iff {α : Type} {xs : List (Option α)} {as : List α} :
    xs.mapM id = some as ↔ xs = as.map some := by
  induction xs generalizing as with
  | nil => cases as <;> simp
  | cons x xs ih =>
    cases as with
    | nil => simp [List.mapM_cons, Option.bind_eq_some_iff]
    | cons a as => simp [List.mapM_cons, Option.bind_eq_some_iff, ih]

/-- Exactly the texts in bytes are decoded, each to its text. -/
theorem decode?_eq_some_iff {bs : Bytes} {s : String} : decode? bs = some s ↔ bs = encode s := by
  rw [decode?, Option.map_eq_some_iff]
  constructor
  · rintro ⟨cs, hcs, rfl⟩
    rw [encode, String.toList_ofList]
    exact eq_flatMap_of_segments (mapM_id_eq_some_iff.1 hcs)
  · rintro rfl
    exact ⟨s.toList, mapM_id_eq_some_iff.2 (segments_flatMap s.toList), String.ofList_toList⟩

/-- Where the bytes of a text go on to those of another, the text itself goes on. -/
theorem exists_of_append_eq_encode {s t : String} {more : Bytes}
    (h : encode s ++ more = encode t) : ∃ u, t = s ++ u ∧ more = encode u := by
  have both : s.toList.map some ++ segments more = t.toList.map some := by
    rw [← segments_flatMap_append, ← segments_flatMap]
    exact congrArg segments h
  obtain ⟨front, back, whole, front', back'⟩ := List.map_eq_append_iff.1 both.symm
  obtain rfl : front = s.toList := List.map_injective_iff.2 (Option.some_injective _) front'
  refine ⟨String.ofList back, ?_, ?_⟩
  · rw [← String.toList_inj, String.toList_append, String.toList_ofList, whole]
  · rw [encode, String.toList_ofList]
    exact eq_flatMap_of_segments back'.symm

theorem encode_injective {s t : String} (h : encode s = encode t) : s = t :=
  Option.some.inj <|
    calc some s = decode? (encode s) := (decode?_eq_some_iff.2 rfl).symm
      _ = some t := decode?_eq_some_iff.2 h

end TeImage.Utf8
