/-
Kinds of records as a whole. Written into a buffer of fixed size a record goes as far as the buffer
does, whichever field its end falls into, and leaves what stands behind the record
(`OutputBuffer.putAll_eq`). So a kind of record whose decoder inverts its encoding and asks for its
size (`RecordFormat.Coherent`) is written whole just where there is room for it, and is read back as
it was written and written back as it was read. The kinds of an image are such
(`records_are_cut_off_cleanly`, `records_are_read_back`).
-/
import Mathlib.Tactic
import TeImage.Proofs.Encoding

namespace TeImage

/-! ## Filling a buffer -/

namespace OutputBuffer

variable {b : OutputBuffer} {piece : Bytes}

/-- The buffer behind as much of a byte string as there is room for. -/
def fill (b : OutputBuffer) (bs : Bytes) : OutputBuffer :=
  ⟨b.written ++ bs.take b.room.length, b.room.drop bs.length⟩

theorem put_eq (b : OutputBuffer) (piece : Bytes) : b.put piece =
    if piece.length ≤ b.room.length then .ok (b.fill piece) else .error (b.fill piece) := rfl

/-- A byte string whose front fits can be written in two parts. -/
theorem fill_fill (h : piece.length ≤ b.room.length) (rest : Bytes) :
    (b.fill piece).fill rest = b.fill (piece ++ rest) := by
  simp only [fill, List.length_drop, List.drop_drop, List.take_append, List.length_append,
    List.append_assoc, List.take_of_length_le h]

/-- Nothing is written behind what does not fit. -/
theorem fill_append_of_full (h : b.room.length ≤ piece.length) (rest : Bytes) :
    b.fill (piece ++ rest) = b.fill piece := by
  have full : b.room.length - piece.length = 0 := Nat.sub_eq_zero_of_le h
  have behind : b.room.length ≤ (piece ++ rest).length := by rw [List.length_append]; omega
  rw [fill, fill, List.take_append, full, List.take_zero, List.append_nil,
    List.drop_eq_nil_of_le behind, List.drop_eq_nil_of_le h]

/-- Pieces fill a buffer as they do when they are joined, and they fit if they do so in all. -/
theorem putAll_eq (b : OutputBuffer) (pieces : List Bytes) : b.putAll pieces =
    if pieces.flatten.length ≤ b.room.length then .ok (b.fill pieces.flatten)
    else .error (b.fill pieces.flatten) := by
  -- For every buffer, as each piece that fits leaves the rest less room.
  induction pieces generalizing b with
  | nil => simp [putAll, fill]
  | cons piece pieces ih =>
    rw [putAll, put_eq, List.flatten_cons, List.length_append]
    by_cases fits : piece.length ≤ b.room.length
    · have room : (b.fill piece).room.length = b.room.length - piece.length := by
        rw [fill, List.length_drop]
      have same : pieces.flatten.length ≤ b.room.length - piece.length ↔
          piece.length + pieces.flatten.length ≤ b.room.length := by omega
      rw [if_pos fits]
      show (b.fill piece).putAll pieces = _
      rw [ih, room, fill_fill fits]
      simp only [same]
    · rw [if_neg fits, if_neg (by omega), fill_append_of_full (by omega)]
      rfl

theorem contents_fill_ofBytes (buffer bs : Bytes) :
    ((ofBytes buffer).fill bs).contents = bs.take buffer.length ++ buffer.drop bs.length := rfl

end OutputBuffer

/-! ## Kinds of records -/

namespace RecordFormat

variable {α : Type} {f : RecordFormat α}

/-- The fields of a record as they are written, joined. -/
def encode (f : RecordFormat α) (a : α) : Bytes := (f.pieces a).flatten

/-- Reading asks for as many bytes as records have, and finds what they were written from. -/
structure Coherent (f : RecordFormat α) : Prop where
  hasWidth : f.decoder.HasWidth f.size
  inverts : f.decoder.Inverts f.encode

theorem appendTo_eq (f : RecordFormat α) (out : Bytes) (a : α) :
    f.appendTo out a = out ++ f.encode a := by
  have joined : (f.pieces a).foldl (fun bs piece => bs ++ id piece) out =
      out ++ ((f.pieces a).map id).flatten := List.foldl_append_eq_append
  rwa [List.map_id] at joined

theorem writeTo_eq (f : RecordFormat α) (b : OutputBuffer) (a : α) : f.writeTo b a =
    (if (f.encode a).length ≤ b.room.length then .ok () else .error .full,
      b.fill (f.encode a)) := by
  rw [writeTo, OutputBuffer.putAll_eq, ← encode]
  by_cases fits : (f.encode a).length ≤ b.room.length
  · simp only [if_pos fits]
  · simp only [if_neg fits]

namespace Coherent

theorem length_encode (hf : f.Coherent) (a : α) : (f.encode a).length = f.size :=
  hf.inverts.length_encode hf.hasWidth a

/-- A buffer of a record's own size takes it whole. -/
theorem toBytes_eq (hf : f.Coherent) (a : α) : f.toBytes a = f.encode a := by
  have size := hf.length_encode a
  have zeros : (List.replicate f.size (0 : UInt8)).length = f.size := List.length_replicate
  rw [toBytes, writeTo_eq, OutputBuffer.contents_fill_ofBytes, size,
    List.take_of_length_le (by rw [size, zeros]), List.drop_eq_nil_of_le zeros.le,
    List.append_nil]

end Coherent

/-- However large the buffer is that a record of the kind is written into, it holds the record's
first bytes, as many as it has room for, and what it held behind them. In full the record is
`encode`. -/
structure CutsOffCleanly (f : RecordFormat α) (encode : α → Bytes) : Prop where
  length_encode : ∀ a, (encode a).length = f.size
  contents : ∀ a buffer, (f.writeTo (.ofBytes buffer) a).2.contents =
    (encode a).take (min buffer.length f.size) ++ buffer.drop f.size
  ok_iff : ∀ a buffer, (f.writeTo (.ofBytes buffer) a).1 = .ok () ↔ f.size ≤ buffer.length
  full_iff : ∀ a buffer, (f.writeTo (.ofBytes buffer) a).1 = .error .full ↔ buffer.length < f.size
  /-- Writing into a buffer of the record's own size never fails. -/
  own : ∀ a, (f.writeTo (.ofBytes (List.replicate f.size 0)) a).1 = .ok ()
  toBytes_eq : ∀ a, f.toBytes a = encode a
  /-- A byte string that grows takes up what a buffer of the record's own size does. -/
  appendTo_eq : ∀ a out, f.appendTo out a = out ++ f.toBytes a

/-- A record of the kind is read back as it was written, and written back as it was read, whatever
stands behind it, and all that is long enough is read. -/
structure ReadsBack (f : RecordFormat α) : Prop where
  run_append : ∀ a rest, f.decoder.run (f.toBytes a ++ rest) = some (a, rest)
  toBytes_of_run : ∀ bs : Bytes, f.size ≤ bs.length →
    ∃ a, f.decoder.run bs = some (a, bs.drop f.size) ∧ f.toBytes a = bs.take f.size
  run_eq_none_iff : ∀ bs, f.decoder.run bs = none ↔ bs.length < f.size

theorem Coherent.cutsOffCleanly (hf : f.Coherent) : f.CutsOffCleanly f.encode := by
  have outcome (a : α) (buffer : Bytes) : (f.writeTo (.ofBytes buffer) a).1 =
      if f.size ≤ buffer.length then .ok () else .error .full := by
    rw [writeTo_eq, hf.length_encode]
    rfl
  refine {
    length_encode := hf.length_encode
    contents := fun a buffer => ?_
    ok_iff := fun a buffer => ?_
    full_iff := fun a buffer => ?_
    own := fun a => ?_
    toBytes_eq := hf.toBytes_eq
    appendTo_eq := fun a out => by rw [RecordFormat.appendTo_eq, hf.toBytes_eq] }
  · have size := hf.length_encode a
    rw [writeTo_eq, OutputBuffer.contents_fill_ofBytes, size]
    congr 1
    rw [← size, ← List.take_eq_take_min]
  · rw [outcome]
    by_cases fits : f.size ≤ buffer.length <;> simp [fits]
  · rw [outcome, ← Nat.not_le]
    by_cases fits : f.size ≤ buffer.length <;> simp [fits]
  · rw [outcome, if_pos (by rw [List.length_replicate])]

theorem Coherent.readsBack (hf : f.Coherent) : f.ReadsBack where
  run_append a rest := by rw [hf.toBytes_eq, hf.inverts.run_append]
  toBytes_of_run bs long := by
    obtain ⟨a, hrun⟩ := hf.hasWidth.run_eq_some long
    have written : bs = f.encode a ++ bs.drop f.size := (hf.inverts bs a _).1 hrun
    refine ⟨a, hrun, ?_⟩
    rw [hf.toBytes_eq, written, List.take_left' (hf.length_encode a)]
  run_eq_none_iff bs := by
    constructor
    · intro none
      by_contra long
      obtain ⟨a, hrun⟩ := hf.hasWidth.run_eq_some (Nat.le_of_not_lt long)
      cases none.symm.trans hrun
    · exact hf.hasWidth.run_eq_none

end RecordFormat

/-! ## The kinds of an image -/

theorem Header.coherent_format : Header.format.Coherent :=
  ⟨Header.hasWidth_decoder, Header.inverts_decoder⟩

theorem SectionRecord.coherent_format : SectionRecord.format.Coherent :=
  ⟨SectionRecord.hasWidth_decoder, SectionRecord.inverts_decoder⟩

theorem DataDirectory.coherent_format : DataDirectory.format.Coherent :=
  ⟨DataDirectory.hasWidth_decoder, DataDirectory.inverts_decoder⟩

/-- A record of 40 or 8 bytes goes into a buffer as far as the buffer reaches: that it does not fit
is told just if the buffer is smaller than the record, and a larger one keeps what stands behind the
record. A buffer of the record's own size takes it whole, as a byte string does that grows. -/
theorem records_are_cut_off_cleanly :
    (Header.format.size = 40 ∧ Header.format.CutsOffCleanly Header.encode) ∧
    (SectionRecord.format.size = 40 ∧ SectionRecord.format.CutsOffCleanly SectionRecord.encode) ∧
    (DataDirectory.format.size = 8 ∧ DataDirectory.format.CutsOffCleanly DataDirectory.encode) :=
  ⟨⟨rfl, Header.coherent_format.cutsOffCleanly⟩,
    ⟨rfl, SectionRecord.coherent_format.cutsOffCleanly⟩,
    ⟨rfl, DataDirectory.coherent_format.cutsOffCleanly⟩⟩

/-- A header that is cut off in the second byte of its image base, a section record that is cut off
behind its name, and a data directory with a byte behind it that stays. -/
theorem records_are_cut_off_cleanly_in_field :
    let h : Header := ⟨Header.magic, 0x8664, 3, 11, 0x1B8, 0x2C0, 0x2A0, 0xFFFD0000, ⟨0, 0⟩, ⟨0, 0⟩⟩
    let r : SectionRecord := ⟨⟨[46, 116, 101, 120, 116, 0, 0, 0], rfl⟩, 1, 2, 3, 4, 5, 6, 7, 8, ⟨9⟩⟩
    let d : DataDirectory := ⟨0x1000, 0x20⟩
    let buffer (size : Nat) : Bytes := List.replicate size 0xCC
    ((Header.format.writeTo (.ofBytes (buffer 18)) h).1 = .error .full ∧
      (Header.format.writeTo (.ofBytes (buffer 18)) h).2.contents = [0x56, 0x5A, 0x64, 0x86, 3, 11,
        0xB8, 1, 0xC0, 2, 0, 0, 0xA0, 2, 0, 0, 0, 0]) ∧
    ((SectionRecord.format.writeTo (.ofBytes (buffer 8)) r).1 = .error .full ∧
      (SectionRecord.format.writeTo (.ofBytes (buffer 8)) r).2.contents =
        [46, 116, 101, 120, 116, 0, 0, 0]) ∧
    (DataDirectory.format.writeTo (.ofBytes (buffer 9)) d).1 = .ok () ∧
      (DataDirectory.format.writeTo (.ofBytes (buffer 9)) d).2.contents =
        [0, 0x10, 0, 0, 0x20, 0, 0, 0, 0xCC] := by
  intro h r d buffer
  obtain ⟨⟨-, header⟩, ⟨-, record⟩, -, directory⟩ := records_are_cut_off_cleanly
  exact ⟨⟨(header.full_iff h (buffer 18)).2 (by decide),
      (header.contents h (buffer 18)).trans (by decide)⟩,
    ⟨(record.full_iff r (buffer 8)).2 (by decide),
      (record.contents r (buffer 8)).trans (by decide)⟩,
    (directory.ok_iff d (buffer 9)).2 (by decide),
      (directory.contents d (buffer 9)).trans (by decide)⟩

/-- Each kind of record is read back as it was written and written back as it was read, whatever
the fields hold and whatever follows, and is read from all that is long enough. -/
theorem records_are_read_back :
    (Header.format.size = 40 ∧ Header.format.ReadsBack) ∧
    (SectionRecord.format.size = 40 ∧ SectionRecord.format.ReadsBack) ∧
    (DataDirectory.format.size = 8 ∧ DataDirectory.format.ReadsBack) :=
  ⟨⟨rfl, Header.coherent_format.readsBack⟩, ⟨rfl, SectionRecord.coherent_format.readsBack⟩,
    ⟨rfl, DataDirectory.coherent_format.readsBack⟩⟩

/-- A header without the mark of a Terse Executable, any bytes that are enough, and too few. -/
theorem records_are_read_back_unmarked :
    let h : Header := ⟨⟨[0x4D, 0x5A], rfl⟩, 0x014C, 0xFF, 0, 8, 0x10, 0, 0x1000, ⟨1, 2⟩, ⟨3, 4⟩⟩
    let bs : Bytes := (List.range 43).map UInt8.ofNat
    (h.signature ≠ Header.magic ∧
      Header.format.decoder.run (Header.format.toBytes h ++ [1, 2, 3]) = some (h, [1, 2, 3])) ∧
    (SectionRecord.format.size ≤ bs.length ∧
      ∃ r, SectionRecord.format.decoder.run bs = some (r, [40, 41, 42]) ∧
        SectionRecord.format.toBytes r = bs.take 40) ∧
    DataDirectory.format.decoder.run (bs.take 7) = none := by
  intro h bs
  obtain ⟨⟨-, header⟩, ⟨-, record⟩, -, directory⟩ := records_are_read_back
  have long : SectionRecord.format.size ≤ bs.length := by decide
  exact ⟨⟨by decide, header.run_append h [1, 2, 3]⟩, ⟨long, record.toBytes_of_run bs long⟩,
    (directory.run_eq_none_iff (bs.take 7)).2 (by decide)⟩

end TeImage
