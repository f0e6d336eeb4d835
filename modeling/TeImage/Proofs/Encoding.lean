/-
Records as they are written. A decoder inverts an encoding if it takes a value off the front of a
byte string exactly when the byte string starts with that value as it is written (`Inverts`); the
fields do, hence the records and counted runs of records do. Reading back what was written, and
writing back what was read, are the two directions of this.
-/
import Mathlib.Tactic
import TeImage.Proofs.Decoding
import TeImage.Proofs.LittleEndian

namespace TeImage

namespace Decoder

variable {α β : Type} {encode : α → Bytes} {d : Decoder α}

/-- The decoder finds `a` just if its input starts with `a` as it is written, and leaves what
stands behind that. -/
def Inverts (d : Decoder α) (encode : α → Bytes) : Prop :=
  ∀ bs a rest, d.run bs = some (a, rest) ↔ bs = encode a ++ rest

theorem Inverts.run_append (hd : Inverts d encode) (a : α) (rest : Bytes) :
    d.run (encode a ++ rest) = some (a, rest) := (hd _ a rest).2 rfl

/-- A value in front of another decoder takes its own bytes and leaves the others. -/
theorem Inverts.run_andThen_eq_some_iff (hd : Inverts d encode) {f : α → Decoder β} {bs : Bytes}
    {b : β} {rest : Bytes} : (d >>= f).run bs = some (b, rest) ↔
      ∃ a behind, bs = encode a ++ behind ∧ (f a).run behind = some (b, rest) := by
  rw [run_andThen, Option.bind_eq_some_iff]
  constructor
  · rintro ⟨⟨a, behind⟩, ha, hb⟩
    exact ⟨a, behind, (hd bs a behind).1 ha, hb⟩
  · rintro ⟨a, behind, ha, hb⟩
    exact ⟨(a, behind), (hd bs a behind).2 ha, hb⟩

/-- A decoder that asks for a fixed width inverts only encodings of that width. -/
theorem Inverts.length_encode {width : Nat} (hd : Inverts d encode) (hw : HasWidth width d)
    (a : α) : (encode a).length = width := by
  have written : d.run (encode a) = some (a, []) := (hd _ a []).2 (List.append_nil _).symm
  rcases Nat.lt_or_ge (encode a).length width with short | long
  · rw [hw.run_eq_none short] at written
    cases written
  · obtain ⟨a', ha'⟩ := hw.run_eq_some long
    rw [ha', Option.some_inj, Prod.mk.injEq, List.drop_eq_nil_iff] at written
    exact Nat.le_antisymm written.2 long

/-! ## Fields -/

theorem run_block_eq_some_iff {width : Nat} {next : Block width → Decoder α} {bs rest : Bytes}
    {a : α} : (block width next).run bs = some (a, rest) ↔
      ∃ (front : Block width) (behind : Bytes), bs = front.1 ++ behind ∧
        (next front).run behind = some (a, rest) := by
  rw [run]
  constructor
  · intro h
    split at h
    · exact ⟨_, _, (List.take_append_drop width bs).symm, h⟩
    · cases h
  · rintro ⟨⟨front, rfl⟩, behind, rfl, h⟩
    have long : front.length ≤ (front ++ behind).length := by rw [List.length_append]; omega
    rw [dif_pos long]
    simpa using h

theorem inverts_bytes (width : Nat) : Inverts (bytes width) (·.1) := by
  intro bs block rest
  rw [bytes, run_block_eq_some_iff]
  constructor
  · rintro ⟨front, behind, rfl, h⟩
    cases h
    rfl
  · rintro rfl
    exact ⟨block, rest, rfl, rfl⟩

theorem run_number_eq_some_iff {width n : Nat} {bs rest : Bytes} :
    (number width).run bs = some (n, rest) ↔
      n < 256 ^ width ∧ bs = littleEndian width n ++ rest := by
  rw [number, run_block_eq_some_iff]
  constructor
  · rintro ⟨⟨front, rfl⟩, behind, rfl, h⟩
    cases h
    exact ⟨littleEndianValue_lt front, by rw [littleEndian_littleEndianValue]⟩
  · rintro ⟨small, rfl⟩
    refine ⟨⟨littleEndian width n, length_littleEndian width n⟩, rest, rfl, ?_⟩
    rw [run_done, littleEndianValue_littleEndian, Nat.mod_eq_of_lt small]

/-- Words are written as the numbers that they stand for. -/
theorem inverts_word {width : Nat} {ofNat : Nat → α} {toNat : α → Nat}
    (toNat_lt : ∀ a, toNat a < 256 ^ width) (ofNat_toNat : ∀ a, ofNat (toNat a) = a)
    (toNat_ofNat : ∀ n < 256 ^ width, toNat (ofNat n) = n) :
    Inverts (do return ofNat (← number width)) fun a => littleEndian width (toNat a) := by
  intro bs a rest
  rw [run_andThen, Option.bind_eq_some_iff]
  constructor
  · rintro ⟨⟨n, behind⟩, hn, ha⟩
    obtain ⟨small, rfl⟩ := run_number_eq_some_iff.1 hn
    cases ha
    show _ = littleEndian width (toNat (ofNat n)) ++ behind
    rw [toNat_ofNat n small]
  · rintro rfl
    refine ⟨(toNat a, rest), run_number_eq_some_iff.2 ⟨toNat_lt a, rfl⟩, ?_⟩
    rw [ofNat_toNat, run_pure]

theorem inverts_u8 : Inverts u8 fun v => littleEndian 1 v.toNat :=
  inverts_word UInt8.toNat_lt (fun _ => UInt8.ofNat_toNat) fun _ h => UInt8.toNat_ofNat_of_lt' h

theorem inverts_u16 : Inverts u16 fun v => littleEndian 2 v.toNat :=
  inverts_word UInt16.toNat_lt (fun _ => UInt16.ofNat_toNat) fun _ h => UInt16.toNat_ofNat_of_lt' h

theorem inverts_u32 : Inverts u32 fun v => littleEndian 4 v.toNat :=
  inverts_word UInt32.toNat_lt (fun _ => UInt32.ofNat_toNat) fun _ h => UInt32.toNat_ofNat_of_lt' h

theorem inverts_u64 : Inverts u64 fun v => littleEndian 8 v.toNat :=
  inverts_word UInt64.toNat_lt (fun _ => UInt64.ofNat_toNat) fun _ h => UInt64.toNat_ofNat_of_lt' h

/-! ## Runs of records -/

theorem Inverts.run_times_eq_some_iff (hd : Inverts d encode) {count : Nat} {bs rest : Bytes}
    {as : List α} : (times count d).run bs = some (as, rest) ↔
      as.length = count ∧ bs = (as.map encode).flatten ++ rest := by
  induction count generalizing bs as with
  | zero =>
    rw [times, run_done, Option.some_inj, Prod.mk.injEq, List.length_eq_zero_iff]
    constructor
    · rintro ⟨rfl, rfl⟩
      exact ⟨rfl, rfl⟩
    · rintro ⟨rfl, rfl⟩
      exact ⟨rfl, rfl⟩
  | succ count ih =>
    rw [times, hd.run_andThen_eq_some_iff]
    constructor
    · rintro ⟨a, behind, rfl, h⟩
      rw [run_andThen, Option.bind_eq_some_iff] at h
      obtain ⟨⟨others, behind'⟩, hothers, h⟩ := h
      cases h
      obtain ⟨rfl, rfl⟩ := ih.1 hothers
      exact ⟨rfl, by simp⟩
    · rintro ⟨hcount, rfl⟩
      cases as with
      | nil => cases hcount
      | cons a others =>
        refine ⟨a, (others.map encode).flatten ++ rest, by simp, ?_⟩
        rw [run_andThen, ih.2 ⟨Nat.succ.inj hcount, rfl⟩]
        rfl

end Decoder

/-! ## The records of an image -/

open Decoder

theorem DataDirectory.encode_append (d : DataDirectory) (rest : Bytes) : d.encode ++ rest =
    littleEndian 4 d.virtualAddress.toNat ++ (littleEndian 4 d.size.toNat ++ rest) := by
  simp [encode, pieces]

theorem DataDirectory.inverts_decoder : Inverts DataDirectory.decoder DataDirectory.encode := by
  intro bs d rest
  rw [encode_append]
  simp only [decoder, inverts_u32.run_andThen_eq_some_iff, run_pure, Option.some_inj,
    Prod.mk.injEq]
  constructor
  · rintro ⟨_, _, rfl, _, _, rfl, rfl, rfl⟩
    rfl
  · rintro rfl
    exact ⟨_, _, rfl, _, _, rfl, rfl, rfl⟩

theorem Header.encode_append (h : Header) (rest : Bytes) : h.encode ++ rest =
    h.signature.1 ++ (littleEndian 2 h.machine.toNat ++ (littleEndian 1 h.sectionCount.toNat ++
      (littleEndian 1 h.subsystem.toNat ++ (littleEndian 2 h.strippedSize.toNat ++
      (littleEndian 4 h.entryAddress.toNat ++ (littleEndian 4 h.codeAddress.toNat ++
      (littleEndian 8 h.imageBase.toNat ++
      (h.relocations.encode ++ (h.debug.encode ++ rest))))))))) := by
  simp [encode, pieces, DataDirectory.encode]

theorem Header.inverts_decoder : Inverts Header.decoder Header.encode := by
  intro bs h rest
  rw [encode_append]
  simp only [decoder, (inverts_bytes 2).run_andThen_eq_some_iff,
    inverts_u8.run_andThen_eq_some_iff, inverts_u16.run_andThen_eq_some_iff,
    inverts_u32.run_andThen_eq_some_iff, inverts_u64.run_andThen_eq_some_iff,
    DataDirectory.inverts_decoder.run_andThen_eq_some_iff, run_pure, Option.some_inj,
    Prod.mk.injEq]
  constructor
  · rintro ⟨_, _, rfl, _, _, rfl, _, _, rfl, _, _, rfl, _, _, rfl, _, _, rfl, _, _, rfl, _, _, rfl,
      _, _, rfl, _, _, rfl, rfl, rfl⟩
    rfl
  · rintro rfl
    exact ⟨_, _, rfl, _, _, rfl, _, _, rfl, _, _, rfl, _, _, rfl, _, _, rfl, _, _, rfl, _, _, rfl,
      _, _, rfl, _, _, rfl, rfl, rfl⟩

theorem SectionRecord.encode_append (r : SectionRecord) (rest : Bytes) : r.encode ++ rest =
    r.name.1 ++ (littleEndian 4 r.misc.toNat ++ (littleEndian 4 r.virtualAddress.toNat ++
      (littleEndian 4 r.rawDataSize.toNat ++ (littleEndian 4 r.rawDataPointer.toNat ++
      (littleEndian 4 r.relocationsPointer.toNat ++ (littleEndian 4 r.lineNumbersPointer.toNat ++
      (littleEndian 2 r.relocationCount.toNat ++ (littleEndian 2 r.lineNumberCount.toNat ++
      (littleEndian 4 r.characteristics.bits.toNat ++ rest))))))))) := by
  simp [encode, pieces]

theorem SectionRecord.inverts_decoder : Inverts SectionRecord.decoder SectionRecord.encode := by
  intro bs r rest
  rw [encode_append]
  simp only [decoder, (inverts_bytes 8).run_andThen_eq_some_iff,
    inverts_u16.run_andThen_eq_some_iff, inverts_u32.run_andThen_eq_some_iff, run_pure,
    Option.some_inj, Prod.mk.injEq]
  constructor
  · rintro ⟨_, _, rfl, _, _, rfl, _, _, rfl, _, _, rfl, _, _, rfl, _, _, rfl, _, _, rfl, _, _, rfl,
      _, _, rfl, _, _, rfl, rfl, rfl⟩
    rfl
  · rintro rfl
    exact ⟨_, _, rfl, _, _, rfl, _, _, rfl, _, _, rfl, _, _, rfl, _, _, rfl, _, _, rfl, _, _, rfl,
      _, _, rfl, _, _, rfl, rfl, rfl⟩

theorem Header.length_encode (h : Header) : h.encode.length = Header.size :=
  inverts_decoder.length_encode hasWidth_decoder h

theorem SectionRecord.length_encode (r : SectionRecord) :
    r.encode.length = Header.sectionRecordSize :=
  inverts_decoder.length_encode hasWidth_decoder r

end TeImage
