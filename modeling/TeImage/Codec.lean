/-
Decoders for records of fixed-width fields, the ways to run them, and the way records are written.

A `Decoder` asks for one block after the other and says what to do with it. It can be run on a
byte string (`run`), which gives the value and the bytes left, or on a `ByteSource`
(`runFrom`), which hands the bytes out in pieces and may fail. A record is written as a list of
pieces, one for each field; `OutputBuffer.putAll` writes such a list into a buffer of fixed size.
A `RecordFormat` puts the two together for one kind of record.
-/
import TeImage.Bytes

namespace TeImage

/-- What is asked of the input, one block at a time, before a value is known. -/
inductive Decoder (α : Type) where
  /-- Nothing more is needed. -/
  | done (value : α)
  /-- The next `width` bytes are needed. -/
  | block (width : Nat) (next : Block width → Decoder α)

namespace Decoder

variable {α β : Type}

/-- Runs `d`, then the decoder that `f` gives for its value. -/
def bind : Decoder α → (α → Decoder β) → Decoder β
  | done a, f => f a
  | block width next, f => block width fun bs => (next bs).bind f

instance : Monad Decoder where
  pure := done
  bind := bind

/-- The next `width` bytes as they are. -/
def bytes (width : Nat) : Decoder (Block width) := block width done

/-- The next `width` bytes as a little-endian number. -/
def number (width : Nat) : Decoder Nat := block width fun bs => done (littleEndianValue bs.1)

def u8 : Decoder UInt8 := do return UInt8.ofNat (← number 1)
def u16 : Decoder UInt16 := do return UInt16.ofNat (← number 2)
def u32 : Decoder UInt32 := do return UInt32.ofNat (← number 4)
def u64 : Decoder UInt64 := do return UInt64.ofNat (← number 8)

/-- `d`, `count` times in a row. -/
def times : (count : Nat) → Decoder α → Decoder (List α)
  | 0, _ => done []
  | count + 1, d => do
    let a ← d
    let rest ← times count d
    return a :: rest

/-- Decodes the start of a byte string. The second component is what was not needed; there is no
answer if the byte string ends too early. -/
def run : Decoder α → Bytes → Option (α × Bytes)
  | done a, bs => some (a, bs)
  | block width next, bs =>
    if h : width ≤ bs.length then
      (next ⟨bs.take width, by simp [h]⟩).run (bs.drop width)
    else none

@[simp] theorem run_done (a : α) (bs : Bytes) : (done a).run bs = some (a, bs) := rfl

/-- Decoders in sequence decode one after the other. -/
theorem run_bind (d : Decoder α) (f : α → Decoder β) (bs : Bytes) :
    (d.bind f).run bs = (d.run bs).bind fun p => (f p.1).run p.2 := by
  induction d generalizing bs with
  | done a => rfl
  | block width next ih =>
    simp only [bind, run]
    split
    · exact ih _ _
    · rfl

end Decoder

/-! ## Input in pieces -/

/-- Why an input gives less than was asked for. -/
inductive InputFault (ε : Type) where
  /-- The data ended before all that was asked for was there. -/
  | endOfData
  /-- The read was broken off and is to be tried again. -/
  | interrupted
  | other (error : ε)
  deriving DecidableEq, Repr

/-- Bytes handed out in pieces. Of the reads that are not interrupted, the `i`-th gives at most
`limits i + 1` bytes, and `interruptions i` interrupted ones come before it. -/
structure ByteSource (ε : Type) where
  unread : Bytes
  limits : Nat → Nat := fun _ => UInt64.size
  interruptions : Nat → Nat := fun _ => 0
  /-- After how many further bytes every read is refused, and the fault that it is refused with. -/
  refusal? : Option (Nat × InputFault ε) := none
  /-- How many reads gave something. -/
  reads : Nat := 0
  /-- How many reads were interrupted since the last of these. -/
  interrupted : Nat := 0

namespace ByteSource

variable {ε : Type}

/-- How many bytes the next read gives when asked for `count`. -/
def available (s : ByteSource ε) (count : Nat) : Nat :=
  let offered := min count (min (s.limits s.reads + 1) s.unread.length)
  match s.refusal? with
  | none => offered
  | some (left, _) => min offered left

/-- One read of at most `count` bytes. It gives no bytes only at the end of the data, or when none
are asked for. -/
def read (s : ByteSource ε) (count : Nat) : Except (InputFault ε) Bytes × ByteSource ε :=
  if s.interrupted < s.interruptions s.reads then
    (.error .interrupted, { s with interrupted := s.interrupted + 1 })
  else
    match s.refusal? with
    | some (0, own) => (.error own, s)
    | _ =>
      let n := s.available count
      (.ok (s.unread.take n), { s with
        unread := s.unread.drop n
        refusal? := s.refusal?.map fun (left, own) => (left - n, own)
        reads := s.reads + 1
        interrupted := 0 })

instance : Inhabited (ByteSource ε) := ⟨{ unread := [] }⟩

/-- Takes one step on the way to `count` bytes: what is there already, with the source it comes
from, grows by one read or is all that is wanted. An interrupted read is tried again. -/
def readStep (count : Nat) : Bytes × ByteSource ε → ExceptT (InputFault ε) Option
    ((Bytes × ByteSource ε) ⊕ (Bytes × ByteSource ε))
  | (there, s) =>
    if count ≤ there.length then pure (.inr (there, s))
    else
      match s.read (count - there.length) with
      | (.ok [], _) => throw .endOfData
      | (.ok piece, s) => pure (.inl (there ++ piece, s))
      | (.error .interrupted, s) => pure (.inl (there, s))
      | (.error fault, _) => throw fault

/-- Reads until `count` bytes are there, with those that are there already. From a source that does
nothing but interrupt it reads without end. -/
def readOn (count : Nat) (there : Bytes) (s : ByteSource ε) :
    ExceptT (InputFault ε) Option (Bytes × ByteSource ε) :=
  repeatM (readStep count) (there, s)

/-- Reads exactly `count` bytes. -/
def readExactly (count : Nat) (s : ByteSource ε) :
    ExceptT (InputFault ε) Option (Bytes × ByteSource ε) := readOn count [] s

end ByteSource

/-- Decodes from a source, one block at a time. -/
def Decoder.runFrom {α ε : Type} :
    Decoder α → ByteSource ε → ExceptT (InputFault ε) Option (α × ByteSource ε)
  | done a, s => pure (a, s)
  | block width next, s => do
    let (bs, s) ← s.readExactly width
    if h : bs.length = width then (next ⟨bs, h⟩).runFrom s
    else throw .endOfData

/-! ## Output into a fixed buffer -/

/-- A buffer of fixed size that is written from its start. -/
structure OutputBuffer where
  /-- What was written. -/
  written : Bytes
  /-- What stands behind it still, as it was before. -/
  room : Bytes
  deriving DecidableEq, Repr

namespace OutputBuffer

/-- An unwritten buffer that holds `bs`. -/
def ofBytes (bs : Bytes) : OutputBuffer := ⟨[], bs⟩

/-- Everything the buffer holds. -/
def contents (b : OutputBuffer) : Bytes := b.written ++ b.room

/-- Writes a piece. If it does not fit, what fits is written all the same, and the buffer is
handed back as an error. -/
def put (b : OutputBuffer) (piece : Bytes) : Except OutputBuffer OutputBuffer :=
  let next : OutputBuffer :=
    ⟨b.written ++ piece.take b.room.length, b.room.drop piece.length⟩
  if piece.length ≤ b.room.length then .ok next else .error next

/-- Writes pieces one after the other and stops at the first that does not fit. -/
def putAll (b : OutputBuffer) : List Bytes → Except OutputBuffer OutputBuffer
  | [] => .ok b
  | piece :: pieces => do (← b.put piece).putAll pieces

end OutputBuffer

/-! ## Kinds of records -/

/-- Why a record was not written as a whole. -/
inductive WriteFault where
  /-- The buffer is full. -/
  | full
  deriving DecidableEq, Repr

def WriteFault.message : WriteFault → String
  | full => "failed to write whole buffer"

/-- How a kind of record is read, and how it is written field by field. -/
structure RecordFormat (α : Type) where
  /-- Length of each record in bytes. -/
  size : Nat
  decoder : Decoder α
  pieces : α → List Bytes

namespace RecordFormat

variable {α : Type}

/-- Writes a record into a buffer: how that ended, and the buffer that it leaves. -/
def writeTo (f : RecordFormat α) (b : OutputBuffer) (a : α) :
    Except WriteFault Unit × OutputBuffer :=
  match b.putAll (f.pieces a) with
  | .ok b => (.ok (), b)
  | .error b => (.error .full, b)

/-- Writes a record behind what a growing byte string holds. -/
def appendTo (f : RecordFormat α) (out : Bytes) (a : α) : Bytes :=
  (f.pieces a).foldl (· ++ ·) out

/-- A record in a buffer of its own. How the writing ended is not asked, as the buffer is meant to
be just large enough. -/
def toBytes (f : RecordFormat α) (a : α) : Bytes :=
  (f.writeTo (.ofBytes (List.replicate f.size 0)) a).2.contents

end RecordFormat

end TeImage
