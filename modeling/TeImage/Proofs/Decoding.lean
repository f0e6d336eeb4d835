/-
Decoders of a fixed width: such a decoder refuses exactly the byte strings that are shorter than
its width, and leaves what lies behind its width. The header, the section record and the section
table have fixed widths, and each field of a decoded header is read off the bytes at its offset.
-/
import Mathlib.Tactic
import TeImage.Load
import TeImage.Proofs.LittleEndian

namespace TeImage

theorem length_slice {data : Bytes} {offset length : Nat} (h : offset + length ≤ data.length) :
    (slice data offset length).length = length := by
  rw [slice, List.length_take, List.length_drop]
  omega

theorem littleEndianValue_slice_lt {data : Bytes} {offset width : Nat}
    (h : offset + width ≤ data.length) :
    littleEndianValue (slice data offset width) < 256 ^ width := by
  have bound := littleEndianValue_lt (slice data offset width)
  rwa [length_slice h] at bound

namespace Decoder

variable {α β : Type}

/-! ## Running in sequence -/

@[simp] theorem run_pure (a : α) (bs : Bytes) : (pure a : Decoder α).run bs = some (a, bs) := rfl

theorem run_andThen (d : Decoder α) (f : α → Decoder β) (bs : Bytes) :
    (d >>= f).run bs = (d.run bs).bind fun p => (f p.1).run p.2 := run_bind d f bs

theorem run_andThen_of {d : Decoder α} {bs rest : Bytes} {a : α} (h : d.run bs = some (a, rest))
    (f : α → Decoder β) : (d >>= f).run bs = (f a).run rest := by
  rw [run_andThen, h, Option.bind_some]

/-! ## Widths -/

/-- Whatever it finds, the decoder asks for `width` bytes in all. -/
inductive HasWidth : Nat → Decoder α → Prop
  | done (a : α) : HasWidth 0 (done a)
  | block {width rest : Nat} {next : Block width → Decoder α} :
      (∀ bs, HasWidth rest (next bs)) → HasWidth (width + rest) (block width next)

theorem HasWidth.andThen {m n : Nat} {d : Decoder α} {f : α → Decoder β} (hd : HasWidth m d)
    (hf : ∀ a, HasWidth n (f a)) : HasWidth (m + n) (d >>= f) := by
  induction hd with
  | done a => rw [Nat.zero_add]; exact hf a
  | block _ ih => rw [Nat.add_assoc]; exact .block ih

theorem hasWidth_bytes (width : Nat) : HasWidth width (bytes width) := .block fun bs => .done bs

theorem hasWidth_number (width : Nat) : HasWidth width (number width) := .block fun _ => .done _

theorem hasWidth_u8 : HasWidth 1 u8 := (hasWidth_number 1).andThen fun _ => .done _

theorem hasWidth_u16 : HasWidth 2 u16 := (hasWidth_number 2).andThen fun _ => .done _

theorem hasWidth_u32 : HasWidth 4 u32 := (hasWidth_number 4).andThen fun _ => .done _

theorem hasWidth_u64 : HasWidth 8 u64 := (hasWidth_number 8).andThen fun _ => .done _

theorem HasWidth.times {width : Nat} {d : Decoder α} (hd : HasWidth width d) :
    ∀ count, HasWidth (count * width) (times count d)
  | 0 => by rw [Nat.zero_mul]; exact .done []
  | count + 1 => by
    rw [Nat.succ_mul, Nat.add_comm]
    exact hd.andThen fun _ => (hd.times count).andThen (n := 0) fun _ => .done _

/-- Enough bytes are always decoded, and what lies behind the width is left. -/
theorem HasWidth.run_eq_some {width : Nat} {d : Decoder α} (hd : HasWidth width d) {bs : Bytes}
    (h : width ≤ bs.length) : ∃ a, d.run bs = some (a, bs.drop width) := by
  induction hd generalizing bs with
  | done a => exact ⟨a, rfl⟩
  | @block width rest next _ ih =>
    have front : (bs.take width).length = width := by rw [List.length_take]; omega
    have behind : rest ≤ (bs.drop width).length := by rw [List.length_drop]; omega
    obtain ⟨a, ha⟩ := ih ⟨bs.take width, front⟩ behind
    refine ⟨a, ?_⟩
    rw [run, dif_pos (by omega), ha, List.drop_drop]

/-- Too few bytes are never decoded. -/
theorem HasWidth.run_eq_none {width : Nat} {d : Decoder α} (hd : HasWidth width d) {bs : Bytes}
    (h : bs.length < width) : d.run bs = none := by
  induction hd generalizing bs with
  | done a => omega
  | @block width rest next _ ih =>
    rw [run]
    split
    · exact ih _ (by rw [List.length_drop]; omega)
    · rfl

/-! ## Single fields at an offset -/

theorem run_bytes_at {data : Bytes} {offset width : Nat} (h : offset + width ≤ data.length) :
    (bytes width).run (data.drop offset) =
      some (⟨slice data offset width, length_slice h⟩, data.drop (offset + width)) := by
  rw [bytes, run, dif_pos (by rw [List.length_drop]; omega), run_done, List.drop_drop]
  rfl

theorem run_number_at {data : Bytes} {offset width : Nat} (h : offset + width ≤ data.length) :
    (number width).run (data.drop offset) =
      some (littleEndianValue (slice data offset width), data.drop (offset + width)) := by
  rw [number, run, dif_pos (by rw [List.length_drop]; omega), run_done, List.drop_drop]
  rfl

theorem run_u8_at {data : Bytes} {offset : Nat} (h : offset + 1 ≤ data.length) :
    u8.run (data.drop offset) =
      some (UInt8.ofNat (littleEndianValue (slice data offset 1)), data.drop (offset + 1)) := by
  rw [u8, run_andThen, run_number_at h]; rfl

theorem run_u16_at {data : Bytes} {offset : Nat} (h : offset + 2 ≤ data.length) :
    u16.run (data.drop offset) =
      some (UInt16.ofNat (littleEndianValue (slice data offset 2)), data.drop (offset + 2)) := by
  rw [u16, run_andThen, run_number_at h]; rfl

theorem run_u32_at {data : Bytes} {offset : Nat} (h : offset + 4 ≤ data.length) :
    u32.run (data.drop offset) =
      some (UInt32.ofNat (littleEndianValue (slice data offset 4)), data.drop (offset + 4)) := by
  rw [u32, run_andThen, run_number_at h]; rfl

theorem run_u64_at {data : Bytes} {offset : Nat} (h : offset + 8 ≤ data.length) :
    u64.run (data.drop offset) =
      some (UInt64.ofNat (littleEndianValue (slice data offset 8)), data.drop (offset + 8)) := by
  rw [u64, run_andThen, run_number_at h]; rfl

end Decoder

/-! ## The records of an image -/

open Decoder

theorem DataDirectory.hasWidth_decoder : HasWidth 8 DataDirectory.decoder :=
  hasWidth_u32.andThen (n := 4) fun _ => hasWidth_u32.andThen (n := 0) fun _ => .done _

theorem DataDirectory.run_decoder_at {data : Bytes} {offset : Nat} (h : offset + 8 ≤ data.length) :
    DataDirectory.decoder.run (data.drop offset) = some
      ({ virtualAddress := UInt32.ofNat (littleEndianValue (slice data offset 4))
         size := UInt32.ofNat (littleEndianValue (slice data (offset + 4) 4)) },
        data.drop (offset + 8)) := by
  rw [DataDirectory.decoder, run_andThen, run_u32_at (by omega), Option.bind_some, run_andThen,
    run_u32_at (by omega)]
  rfl

theorem Header.hasWidth_decoder : HasWidth Header.size Header.decoder := by
  refine (hasWidth_bytes 2).andThen (n := 38) fun _ => ?_
  refine hasWidth_u16.andThen (n := 36) fun _ => ?_
  refine hasWidth_u8.andThen (n := 35) fun _ => hasWidth_u8.andThen (n := 34) fun _ => ?_
  refine hasWidth_u16.andThen (n := 32) fun _ => hasWidth_u32.andThen (n := 28) fun _ => ?_
  refine hasWidth_u32.andThen (n := 24) fun _ => hasWidth_u64.andThen (n := 16) fun _ => ?_
  refine DataDirectory.hasWidth_decoder.andThen (n := 8) fun _ => ?_
  exact DataDirectory.hasWidth_decoder.andThen (n := 0) fun _ => .done _

/-- Each field of the header, read off the bytes at its offset. -/
theorem Header.run_decoder {data : Bytes} (h : Header.size ≤ data.length) :
    Header.decoder.run data = some ({
      signature := ⟨slice data 0 2, length_slice (by rw [Header.size] at h; omega)⟩
      machine := UInt16.ofNat (littleEndianValue (slice data 2 2))
      sectionCount := UInt8.ofNat (littleEndianValue (slice data 4 1))
      subsystem := UInt8.ofNat (littleEndianValue (slice data 5 1))
      strippedSize := UInt16.ofNat (littleEndianValue (slice data 6 2))
      entryAddress := UInt32.ofNat (littleEndianValue (slice data 8 4))
      codeAddress := UInt32.ofNat (littleEndianValue (slice data 12 4))
      imageBase := UInt64.ofNat (littleEndianValue (slice data 16 8))
      relocations := {
        virtualAddress := UInt32.ofNat (littleEndianValue (slice data 24 4))
        size := UInt32.ofNat (littleEndianValue (slice data 28 4)) }
      debug := {
        virtualAddress := UInt32.ofNat (littleEndianValue (slice data 32 4))
        size := UInt32.ofNat (littleEndianValue (slice data 36 4)) } }, data.drop 40) := by
  rw [Header.size] at h
  -- every field is taken at the offset where the one before it ends
  have start : Header.decoder.run data = Header.decoder.run (data.drop 0) := rfl
  rw [start, Header.decoder, run_andThen_of (run_bytes_at (by omega)),
    run_andThen_of (run_u16_at (by omega)), run_andThen_of (run_u8_at (by omega)),
    run_andThen_of (run_u8_at (by omega)), run_andThen_of (run_u16_at (by omega)),
    run_andThen_of (run_u32_at (by omega)), run_andThen_of (run_u32_at (by omega)),
    run_andThen_of (run_u64_at (by omega)),
    run_andThen_of (DataDirectory.run_decoder_at (by omega)),
    run_andThen_of (DataDirectory.run_decoder_at (by omega)), run_pure]

theorem Header.decode?_eq {data : Bytes} (h : Header.size ≤ data.length) :
    Header.decode? data = some {
      signature := ⟨slice data 0 2, length_slice (by rw [Header.size] at h; omega)⟩
      machine := UInt16.ofNat (littleEndianValue (slice data 2 2))
      sectionCount := UInt8.ofNat (littleEndianValue (slice data 4 1))
      subsystem := UInt8.ofNat (littleEndianValue (slice data 5 1))
      strippedSize := UInt16.ofNat (littleEndianValue (slice data 6 2))
      entryAddress := UInt32.ofNat (littleEndianValue (slice data 8 4))
      codeAddress := UInt32.ofNat (littleEndianValue (slice data 12 4))
      imageBase := UInt64.ofNat (littleEndianValue (slice data 16 8))
      relocations := {
        virtualAddress := UInt32.ofNat (littleEndianValue (slice data 24 4))
        size := UInt32.ofNat (littleEndianValue (slice data 28 4)) }
      debug := {
        virtualAddress := UInt32.ofNat (littleEndianValue (slice data 32 4))
        size := UInt32.ofNat (littleEndianValue (slice data 36 4)) } } := by
  rw [Header.decode?, Header.run_decoder h, Option.map_some]

theorem Header.decode?_eq_none {data : Bytes} (h : data.length < Header.size) :
    Header.decode? data = none := by
  rw [Header.decode?, Header.hasWidth_decoder.run_eq_none h, Option.map_none]

theorem parseHeader_eq_ok_iff {data : Bytes} {h : Header} :
    parseHeader data = .ok h ↔ Header.decode? data = some h := by
  rw [parseHeader]
  cases Header.decode? data <;> simp

/-- The machine code that a header at the start of `data` has. -/
def machineOf (data : Bytes) : UInt16 := .ofNat (littleEndianValue (slice data 2 2))

/-- The stripped size that a header at the start of `data` has. -/
def strippedSizeOf (data : Bytes) : UInt16 := .ofNat (littleEndianValue (slice data 6 2))

/-- The image base that a header at the start of `data` has. -/
def imageBaseOf (data : Bytes) : UInt64 := .ofNat (littleEndianValue (slice data 16 8))

/-- The fields that a load looks at, read off their bytes. -/
theorem fields_of_parseHeader {data : Bytes} {h : Header} (hh : parseHeader data = .ok h) :
    h.machine = machineOf data ∧
      h.sectionCount = .ofNat (littleEndianValue (slice data 4 1)) ∧
      h.strippedSize = strippedSizeOf data ∧
      h.entryAddress = .ofNat (littleEndianValue (slice data 8 4)) ∧
      h.imageBase = imageBaseOf data := by
  rcases Nat.lt_or_ge data.length Header.size with short | long
  · rw [parseHeader, Header.decode?_eq_none short] at hh
    cases hh
  · rw [parseHeader, Header.decode?_eq long] at hh
    cases hh
    exact ⟨rfl, rfl, rfl, rfl, rfl⟩

theorem SectionRecord.hasWidth_decoder : HasWidth Header.sectionRecordSize SectionRecord.decoder := by
  refine (hasWidth_bytes 8).andThen (n := 32) fun _ => ?_
  refine hasWidth_u32.andThen (n := 28) fun _ => hasWidth_u32.andThen (n := 24) fun _ => ?_
  refine hasWidth_u32.andThen (n := 20) fun _ => hasWidth_u32.andThen (n := 16) fun _ => ?_
  refine hasWidth_u32.andThen (n := 12) fun _ => hasWidth_u32.andThen (n := 8) fun _ => ?_
  refine hasWidth_u16.andThen (n := 6) fun _ => hasWidth_u16.andThen (n := 4) fun _ => ?_
  exact hasWidth_u32.andThen (n := 0) fun _ => .done _

/-- Each field of a section record, read off the bytes at its offset. -/
theorem SectionRecord.run_decoder {data : Bytes} (h : Header.sectionRecordSize ≤ data.length) :
    SectionRecord.decoder.run data = some ({
      name := ⟨slice data 0 8, length_slice (by rw [Header.sectionRecordSize] at h; omega)⟩
      misc := UInt32.ofNat (littleEndianValue (slice data 8 4))
      virtualAddress := UInt32.ofNat (littleEndianValue (slice data 12 4))
      rawDataSize := UInt32.ofNat (littleEndianValue (slice data 16 4))
      rawDataPointer := UInt32.ofNat (littleEndianValue (slice data 20 4))
      relocationsPointer := UInt32.ofNat (littleEndianValue (slice data 24 4))
      lineNumbersPointer := UInt32.ofNat (littleEndianValue (slice data 28 4))
      relocationCount := UInt16.ofNat (littleEndianValue (slice data 32 2))
      lineNumberCount := UInt16.ofNat (littleEndianValue (slice data 34 2))
      characteristics := ⟨UInt32.ofNat (littleEndianValue (slice data 36 4))⟩ },
      data.drop 40) := by
  rw [Header.sectionRecordSize] at h
  have start : SectionRecord.decoder.run data = SectionRecord.decoder.run (data.drop 0) := rfl
  rw [start, SectionRecord.decoder, run_andThen_of (run_bytes_at (by omega)),
    run_andThen_of (run_u32_at (by omega)), run_andThen_of (run_u32_at (by omega)),
    run_andThen_of (run_u32_at (by omega)), run_andThen_of (run_u32_at (by omega)),
    run_andThen_of (run_u32_at (by omega)), run_andThen_of (run_u32_at (by omega)),
    run_andThen_of (run_u16_at (by omega)), run_andThen_of (run_u16_at (by omega)),
    run_andThen_of (run_u32_at (by omega)), run_pure]

theorem ImageSection.hasWidth_tableDecoder (count : Nat) :
    HasWidth (Header.size + count * Header.sectionRecordSize) (ImageSection.tableDecoder count) :=
  (hasWidth_bytes Header.size).andThen fun _ => SectionRecord.hasWidth_decoder.times count

end TeImage
