/-
Byte strings read by type definitions. Walking a definition through a byte string starts each field
where the sizes of the fields before it end, an element of an array behind the one before it, and
all members of a union at one place, and takes numbers little-endian. The built-in definitions,
walked so, show field by field what the decoders of the header, the section record and the data
directory find (`builtin_types_describe_records`).
-/
import Mathlib.Tactic
import TeImage.Proofs.Decoding
import TeImage.Types.Builtin
import TeImage.Types.Size

namespace TeImage

/-! ## Walking a type -/

/-- What the bytes of a type stand for. -/
inductive Value where
  | number (n : Nat)
  | list (elements : List Value)
  /-- The fields of a structure, or the members of a union, by name. -/
  | record (fields : List (String × Value))

section

variable (read : TypeRef → Nat → Option Value) (size : TypeRef → Option UInt64)

/-- Fields one after the other, and the offset behind the last of them. -/
def walkFields : List Field → Nat → Option (List (String × Value) × Nat)
  | [], offset => some ([], offset)
  | f :: fields, offset => do
    let shown ← read f.type offset
    let (others, stop) ← walkFields fields (offset + (← size f.type).toNat)
    return ((f.name, shown) :: others, stop)

/-- Members at one offset. -/
def walkMembers (members : List Field) (offset : Nat) : Option (List (String × Value)) :=
  members.mapM fun f => return (f.name, ← read f.type offset)

/-- What a definition shows at an offset, and the offset behind it. -/
def TypeKind.walk : TypeKind → Nat → Option (Value × Nat)
  | struct fields, offset => do
    let (shown, stop) ← walkFields read size fields offset
    return (.record shown, stop)
  | union members, offset => do
    let shown ← walkMembers read members offset
    return (.record shown, offset + (← Size.largest (fun f => size f.type) members).toNat)
  | aliasOf t, offset => do
    let shown ← read t offset
    return (shown, offset + (← size t).toNat)

end

/-- The number in the `width` bytes at an offset. -/
def readNumber (data : Bytes) (width offset : Nat) : Option Value :=
  if offset + width ≤ data.length then
    some (.number (littleEndianValue (slice data offset width)))
  else none

/-- What a type shows at an offset, when `levels` levels may be expanded. -/
def TypeRef.readWithin (pointerSize : UInt64) (types : TypeTable) (data : Bytes) :
    (levels : Nat) → TypeRef → (offset : Nat) → Option Value
  | 0, _, _ => none
  | levels + 1, t, offset =>
    match t with
    | u8 | char => readNumber data 1 offset
    | u16 => readNumber data 2 offset
    | u32 => readNumber data 4 offset
    | u64 => readNumber data 8 offset
    | pointer _ => readNumber data pointerSize.toNat offset
    | array element count => do
      let size ← element.size pointerSize types
      let shown ← (List.range count.toNat).mapM fun i =>
        readWithin pointerSize types data levels element (offset + i * size.toNat)
      return .list shown
    | union members => do
      return .record (← walkMembers (readWithin pointerSize types data levels) members offset)
    | named name => do
      let found ← types name
      let (shown, _) ← found.kind.walk (readWithin pointerSize types data levels)
        (TypeRef.size pointerSize types) offset
      return shown

/-- What a definition shows at the start of a byte string, and the offset behind it. -/
def TypeDef.walk (pointerSize : UInt64) (types : TypeTable) (d : TypeDef) (data : Bytes) :
    Option (Value × Nat) :=
  d.kind.walk (TypeRef.readWithin pointerSize types data TypeRef.maxLevels)
    (TypeRef.size pointerSize types) 0

/-! ## What the records show -/

def Bytes.shown (bs : Bytes) : Value := .list (bs.map fun b => .number b.toNat)

def DataDirectory.shown (d : DataDirectory) : Value := .record [
  ("VirtualAddress", .number d.virtualAddress.toNat),
  ("Size", .number d.size.toNat)]

def Header.shown (h : Header) : Value := .record [
  ("Signature", Bytes.shown h.signature.1),
  ("Machine", .number h.machine.toNat),
  ("NumberOfSections", .number h.sectionCount.toNat),
  ("Subsystem", .number h.subsystem.toNat),
  ("StrippedSize", .number h.strippedSize.toNat),
  ("AddressOfEntryPoint", .number h.entryAddress.toNat),
  ("BaseOfCode", .number h.codeAddress.toNat),
  ("ImageBase", .number h.imageBase.toNat),
  ("DataDirectory", .list [h.relocations.shown, h.debug.shown])]

/-- Both readings of `Misc` are the same number. -/
def SectionRecord.shown (r : SectionRecord) : Value := .record [
  ("Name", Bytes.shown r.name.1),
  ("Misc", .record [
    ("PhysicalAddress", .number r.misc.toNat),
    ("VirtualSize", .number r.misc.toNat)]),
  ("VirtualAddress", .number r.virtualAddress.toNat),
  ("SizeOfRawData", .number r.rawDataSize.toNat),
  ("PointerToRawData", .number r.rawDataPointer.toNat),
  ("PointerToRelocations", .number r.relocationsPointer.toNat),
  ("PointerToLinenumbers", .number r.lineNumbersPointer.toNat),
  ("NumberOfRelocations", .number r.relocationCount.toNat),
  ("NumberOfLinenumbers", .number r.lineNumberCount.toNat),
  ("Characteristics", .number r.characteristics.bits.toNat)]

/-! ## Single types -/

section

variable {pointerSize : UInt64} {types : TypeTable} {data : Bytes} {levels offset next : Nat}
  {t : TypeRef} {shown : Value}

/-- A type shows `shown` at an offset, and its size takes the walk on to `next`. -/
def Shows (pointerSize : UInt64) (types : TypeTable) (data : Bytes) (levels : Nat) (t : TypeRef)
    (offset : Nat) (shown : Value) (next : Nat) : Prop :=
  t.readWithin pointerSize types data levels offset = some shown ∧
    ∃ size, t.size pointerSize types = some size ∧ offset + size.toNat = next

theorem readNumber_of_le {width : Nat} (h : offset + width ≤ data.length) :
    readNumber data width offset = some (.number (littleEndianValue (slice data offset width))) :=
  if_pos h

theorem shows_u8 (h : offset + 1 ≤ data.length) :
    Shows pointerSize types data (levels + 1) .u8 offset
      (.number (UInt8.ofNat (littleEndianValue (slice data offset 1))).toNat) (offset + 1) := by
  refine ⟨?_, 1, rfl, rfl⟩
  rw [UInt8.toNat_ofNat_of_lt' (littleEndianValue_slice_lt h)]
  exact readNumber_of_le h

theorem shows_u16 (h : offset + 2 ≤ data.length) :
    Shows pointerSize types data (levels + 1) .u16 offset
      (.number (UInt16.ofNat (littleEndianValue (slice data offset 2))).toNat) (offset + 2) := by
  refine ⟨?_, 2, rfl, rfl⟩
  rw [UInt16.toNat_ofNat_of_lt' (littleEndianValue_slice_lt h)]
  exact readNumber_of_le h

theorem shows_u32 (h : offset + 4 ≤ data.length) :
    Shows pointerSize types data (levels + 1) .u32 offset
      (.number (UInt32.ofNat (littleEndianValue (slice data offset 4))).toNat) (offset + 4) := by
  refine ⟨?_, 4, rfl, rfl⟩
  rw [UInt32.toNat_ofNat_of_lt' (littleEndianValue_slice_lt h)]
  exact readNumber_of_le h

theorem shows_u64 (h : offset + 8 ≤ data.length) :
    Shows pointerSize types data (levels + 1) .u64 offset
      (.number (UInt64.ofNat (littleEndianValue (slice data offset 8))).toNat) (offset + 8) := by
  refine ⟨?_, 8, rfl, rfl⟩
  rw [UInt64.toNat_ofNat_of_lt' (littleEndianValue_slice_lt h)]
  exact readNumber_of_le h

theorem mapM_eq_some_map {α β : Type} {f : α → Option β} {g : α → β} {l : List α}
    (h : ∀ a ∈ l, f a = some (g a)) : l.mapM f = some (l.map g) := by
  induction l with
  | nil => rfl
  | cons a l ih =>
    obtain ⟨first, others⟩ := List.forall_mem_cons.1 h
    rw [List.mapM_cons, first, ih others]
    rfl

/-- Elements stand one behind the other. -/
theorem shows_array {element : TypeRef} {count : UInt64} (width total : UInt64) {g : Nat → Value}
    (hwidth : element.size pointerSize types = some width)
    (htotal : (TypeRef.array element count).size pointerSize types = some total)
    (each : ∀ i < count.toNat, element.readWithin pointerSize types data levels
      (offset + i * width.toNat) = some (g i)) :
    Shows pointerSize types data (levels + 1) (.array element count) offset
      (.list ((List.range count.toNat).map g)) (offset + total.toNat) := by
  refine ⟨?_, total, htotal, rfl⟩
  have elements : (List.range count.toNat).mapM (fun i =>
      element.readWithin pointerSize types data levels (offset + i * width.toNat)) =
        some ((List.range count.toNat).map g) :=
    mapM_eq_some_map fun i hi => each i (List.mem_range.1 hi)
  rw [TypeRef.readWithin, hwidth]
  simp only [Option.bind_eq_bind, Option.bind_some, elements]
  rfl

/-- The numbers of single bytes are the bytes. -/
theorem map_range_slice {width : Nat} (h : offset + width ≤ data.length) :
    (List.range width).map (fun i => Value.number (littleEndianValue (slice data (offset + i) 1))) =
      (slice data offset width).map fun b => .number b.toNat := by
  apply List.ext_getElem
  · rw [List.length_map, List.length_map, List.length_range, length_slice h]
  · intro i hi hi'
    rw [List.length_map, List.length_range] at hi
    have byte : slice data (offset + i) 1 = [data[offset + i]] := by
      rw [slice, List.drop_eq_getElem_cons (by omega)]
      rfl
    have value (b : UInt8) : littleEndianValue [b] = b.toNat := by simp [littleEndianValue]
    simp only [List.getElem_map, List.getElem_range, byte, value]
    simp only [slice, List.getElem_take, List.getElem_drop]

/-- Characters one behind the other show their bytes. -/
theorem shows_chars {count : UInt64} (width : Nat) (hcount : count.toNat = width)
    (htotal : (TypeRef.array .char count).size pointerSize types = some count)
    (h : offset + width ≤ data.length) :
    Shows pointerSize types data (levels + 2) (.array .char count) offset
      (Bytes.shown (slice data offset width)) (offset + width) := by
  subst hcount
  rw [Bytes.shown, ← map_range_slice h]
  refine shows_array 1 _ rfl htotal fun i hi => ?_
  have place : i * (1 : UInt64).toNat = i := Nat.mul_one i
  rw [place]
  exact readNumber_of_le (by omega)

/-! ## Fields in a row -/

theorem walkFields_cons {name : String} {fields : List Field} {others : List (String × Value)}
    {stop : Nat} (first : Shows pointerSize types data levels t offset shown next)
    (rest : walkFields (TypeRef.readWithin pointerSize types data levels)
      (TypeRef.size pointerSize types) fields next = some (others, stop)) :
    walkFields (TypeRef.readWithin pointerSize types data levels)
      (TypeRef.size pointerSize types) (⟨name, t⟩ :: fields) offset =
        some ((name, shown) :: others, stop) := by
  obtain ⟨hread, size, hsize, rfl⟩ := first
  rw [walkFields, hread, hsize]
  simp only [Option.bind_eq_bind, Option.bind_some, rest]
  rfl

theorem walk_struct {fields : List Field} {shown : List (String × Value)} {stop : Nat}
    (h : walkFields (TypeRef.readWithin pointerSize types data levels)
      (TypeRef.size pointerSize types) fields offset = some (shown, stop)) :
    (TypeKind.struct fields).walk (TypeRef.readWithin pointerSize types data levels)
      (TypeRef.size pointerSize types) offset = some (.record shown, stop) := by
  rw [TypeKind.walk, h]
  rfl

end

/-! ## The records -/

section

variable (pointerSize : UInt64) {data : Bytes} {levels offset : Nat}

theorem walk_dataDirectory (types : TypeTable) (h : offset + 8 ≤ data.length) :
    Builtin.dataDirectory.kind.walk (TypeRef.readWithin pointerSize types data (levels + 1))
      (TypeRef.size pointerSize types) offset =
        some (DataDirectory.shown {
          virtualAddress := UInt32.ofNat (littleEndianValue (slice data offset 4))
          size := UInt32.ofNat (littleEndianValue (slice data (offset + 4) 4)) }, offset + 8) :=
  walk_struct <|
    walkFields_cons (shows_u32 (by omega)) <|
    walkFields_cons (shows_u32 (by omega)) rfl

/-- Where the header has its array of directories, two of them stand one behind the other. -/
theorem shows_dataDirectories (h : offset + 16 ≤ data.length) :
    Shows pointerSize (.ofList Builtin.all) data (levels + 3)
      (.array (.named Builtin.dataDirectoryName) 2) offset
      (.list [
        DataDirectory.shown {
          virtualAddress := UInt32.ofNat (littleEndianValue (slice data offset 4))
          size := UInt32.ofNat (littleEndianValue (slice data (offset + 4) 4)) },
        DataDirectory.shown {
          virtualAddress := UInt32.ofNat (littleEndianValue (slice data (offset + 8) 4))
          size := UInt32.ofNat (littleEndianValue (slice data (offset + 8 + 4) 4)) }])
      (offset + 16) := by
  have named (place : Nat) (hplace : place + 8 ≤ data.length) :
      TypeRef.readWithin pointerSize (.ofList Builtin.all) data (levels + 2)
        (.named Builtin.dataDirectoryName) place = some (DataDirectory.shown {
          virtualAddress := UInt32.ofNat (littleEndianValue (slice data place 4))
          size := UInt32.ofNat (littleEndianValue (slice data (place + 4) 4)) }) := by
    have found : TypeTable.ofList Builtin.all Builtin.dataDirectoryName =
        some Builtin.dataDirectory := rfl
    rw [TypeRef.readWithin, found]
    simp only [Option.bind_eq_bind, Option.bind_some, walk_dataDirectory pointerSize _ hplace]
    rfl
  refine shows_array 8 16 (g := fun i => DataDirectory.shown {
      virtualAddress := UInt32.ofNat (littleEndianValue (slice data (offset + i * 8) 4))
      size := UInt32.ofNat (littleEndianValue (slice data (offset + i * 8 + 4) 4)) })
    rfl rfl fun i hi => named _ ?_
  have last : i < 2 := hi
  show offset + i * 8 + 8 ≤ data.length
  omega

theorem walk_header (h : 40 ≤ data.length) : ∃ hd,
    Header.decoder.run data = some (hd, data.drop 40) ∧
    Builtin.header.walk pointerSize (.ofList Builtin.all) data = some (hd.shown, 40) := by
  refine ⟨_, Header.run_decoder h, ?_⟩
  exact walk_struct <|
    walkFields_cons (shows_chars 2 rfl rfl (by omega)) <|
    walkFields_cons (shows_u16 (by omega)) <|
    walkFields_cons (shows_u8 (by omega)) <|
    walkFields_cons (shows_u8 (by omega)) <|
    walkFields_cons (shows_u16 (by omega)) <|
    walkFields_cons (shows_u32 (by omega)) <|
    walkFields_cons (shows_u32 (by omega)) <|
    walkFields_cons (shows_u64 (by omega)) <|
    walkFields_cons (shows_dataDirectories pointerSize (by omega)) rfl

/-- Both members of `Misc` stand at its offset. -/
theorem shows_misc (types : TypeTable) (h : offset + 4 ≤ data.length) :
    let misc := UInt32.ofNat (littleEndianValue (slice data offset 4))
    Shows pointerSize types data (levels + 2)
      (.union [⟨"PhysicalAddress", .u32⟩, ⟨"VirtualSize", .u32⟩]) offset
      (.record [("PhysicalAddress", .number misc.toNat), ("VirtualSize", .number misc.toNat)])
      (offset + 4) := by
  intro misc
  have one : Shows pointerSize types data (levels + 1) .u32 offset (.number misc.toNat)
      (offset + 4) := shows_u32 h
  obtain ⟨hread, -⟩ := one
  refine ⟨?_, 4, rfl, rfl⟩
  simp only [TypeRef.readWithin, walkMembers, List.mapM_cons, List.mapM_nil] at hread ⊢
  rw [hread]
  rfl

theorem walk_sectionRecord (h : 40 ≤ data.length) : ∃ r,
    SectionRecord.decoder.run data = some (r, data.drop 40) ∧
    Builtin.sectionRecord.walk pointerSize (.ofList Builtin.all) data = some (r.shown, 40) := by
  refine ⟨_, SectionRecord.run_decoder h, ?_⟩
  exact walk_struct <|
    walkFields_cons (shows_chars 8 rfl rfl (by omega)) <|
    walkFields_cons (shows_misc pointerSize _ (by omega)) <|
    walkFields_cons (shows_u32 (by omega)) <|
    walkFields_cons (shows_u32 (by omega)) <|
    walkFields_cons (shows_u32 (by omega)) <|
    walkFields_cons (shows_u32 (by omega)) <|
    walkFields_cons (shows_u32 (by omega)) <|
    walkFields_cons (shows_u16 (by omega)) <|
    walkFields_cons (shows_u16 (by omega)) <|
    walkFields_cons (shows_u32 (by omega)) rfl

end

/-- Whatever the bytes and the pointer size, each built-in definition shows the fields that the
decoder of its record finds, and ends where that decoder ends. -/
theorem builtin_types_describe_records (pointerSize : UInt64) (data : Bytes) :
    (40 ≤ data.length →
      (∃ h, Header.decoder.run data = some (h, data.drop 40) ∧
        Builtin.header.walk pointerSize (.ofList Builtin.all) data = some (h.shown, 40)) ∧
      ∃ r, SectionRecord.decoder.run data = some (r, data.drop 40) ∧
        Builtin.sectionRecord.walk pointerSize (.ofList Builtin.all) data = some (r.shown, 40)) ∧
    (8 ≤ data.length →
      ∃ d, DataDirectory.decoder.run data = some (d, data.drop 8) ∧
        Builtin.dataDirectory.walk pointerSize (.ofList Builtin.all) data = some (d.shown, 8)) := by
  constructor
  · intro h
    exact ⟨walk_header pointerSize h, walk_sectionRecord pointerSize h⟩
  · intro h
    have inside : 0 + 8 ≤ data.length := by omega
    exact ⟨_, DataDirectory.run_decoder_at inside, walk_dataDirectory pointerSize _ inside⟩

/-- Forty different bytes, and pointers of four. -/
theorem builtin_types_describe_records_numbered :
    let data : Bytes := (List.range 40).map UInt8.ofNat
    40 ≤ data.length ∧
      ∃ h, Header.decoder.run data = some (h, data.drop 40) ∧
        Builtin.header.walk 4 (.ofList Builtin.all) data = some (h.shown, 40) :=
  ⟨by decide, ((builtin_types_describe_records 4 _).1 (by decide)).1⟩

end TeImage
