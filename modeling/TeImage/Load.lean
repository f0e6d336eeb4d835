/-
Loading: from the bytes of a Terse Executable to registrations with a sink.

Everything is computed before the first registration, so a load that fails leaves its sink alone.
-/
import TeImage.Image

namespace TeImage

/-- Computations that may fail, write log lines, and change a state. What was changed before a
failure stays changed. -/
abbrev LoadM (σ : Type) := ExceptT LoadError (StateT σ Logged)

namespace LoadM

variable {σ α : Type}

def log (lines : List LogLine) : LoadM σ Unit :=
  ExceptT.lift (StateT.lift (Logged.write lines))

/-- A computation that cannot fail and changes nothing. -/
def ofLogged (x : Logged α) : LoadM σ α := ExceptT.lift (StateT.lift x)

/-- A computation that only may fail. -/
def ofExcept (x : Except LoadError α) : LoadM σ α := ExceptT.mk (pure x)

def register [Sink σ] (r : Registration) : LoadM σ Unit := modify (Sink.register · r)

def registerAll [Sink σ] (rs : List Registration) : LoadM σ Unit := rs.forM register

/-- The outcome, the state behind it, and the lines written on the way. -/
def runOn (x : LoadM σ α) (s : σ) : Logged (Except LoadError α × σ) := x.run.run s

end LoadM

/-! ## What can be told from the first bytes -/

/-- At least as long as a header, and marked as a Terse Executable. -/
def isTerse (data : Bytes) : Bool :=
  Header.size ≤ data.length && data.take 2 = Header.magic.1

/-- The bytes of `data` in the range that starts at `offset`. -/
def slice (data : Bytes) (offset length : Nat) : Bytes := (data.drop offset).take length

/-- The address of the entry point, read straight from the fields it is made of. -/
def entryPointOf (data : Bytes) : Except LoadError UInt64 :=
  if isTerse data then
    let entryAddress := littleEndianValue (slice data 8 4)
    let imageBase := littleEndianValue (slice data 16 8)
    .ok (UInt64.ofNat imageBase + UInt64.ofNat entryAddress)
  else .error .notTerse

/-- The header at the start of `data`, whatever its signature. -/
def parseHeader (data : Bytes) : Except LoadError Header :=
  match Header.decode? data with
  | some h => .ok h
  | none => .error .headerCutOff

/-- Why no header was read from a source. -/
inductive HeaderFault (ε : Type) where
  /-- What the source gave is no header. -/
  | content (error : LoadError)
  | input (fault : InputFault ε)
  deriving DecidableEq, Repr

/-- What a fault of the input says of the header that is read: data that end are no header, any
other fault stays what it is. -/
def HeaderFault.ofInput {ε : Type} : InputFault ε → HeaderFault ε
  | .endOfData => .content .headerCutOff
  | fault => .input fault

/-- Readings from a source of what belongs to a header. -/
abbrev HeaderReader (ε : Type) := StateT (ByteSource ε) (ExceptT (HeaderFault ε) Option)

/-- Reads one field of a header. -/
def HeaderReader.field {α ε : Type} (d : Decoder α) : HeaderReader ε α := fun s =>
  ExceptT.mk ((d.runFrom s).run.map (·.mapError .ofInput))

open HeaderReader in
/-- Reads the header that a source gives first, whatever its signature. -/
def readHeader {ε : Type} : HeaderReader ε Header := do
  let signature ← field (.bytes 2)
  let machine ← field .u16
  let sectionCount ← field .u8
  let subsystem ← field .u8
  let strippedSize ← field .u16
  let entryAddress ← field .u32
  let codeAddress ← field .u32
  let imageBase ← field .u64
  let relocations ← field DataDirectory.decoder
  let debug ← field DataDirectory.decoder
  return {
    signature, machine, sectionCount, subsystem, strippedSize, entryAddress, codeAddress,
    imageBase, relocations, debug }

/-- Any Terse Executable may be executed. -/
def isExecutable : Bool := true

/-! ## Stages -/

namespace Load

variable {σ : Type}

/-- Tells which platform the image is for, and warns where its header looks wrong. -/
def remarks (h : Header) : List LogLine :=
  let platform := Platform.ofMachine h.machine
  let platformLine : LogLine :=
    if platform.isResolved then ⟨.info, .load, s!"Platform {platform.display}"⟩
    else
      let machine := Text.hexPadded 4 h.machine.toNat
      ⟨.warn, .load, s!"Unknown machine type {machine}; continuing without a platform"⟩
  let strippedLines : List LogLine :=
    if h.headerOffset < 0 then
      let stripped := Text.hex h.strippedSize.toNat
      [⟨.warn, .load, s!"Stripped size {stripped} is smaller than the TE header"⟩]
    else []
  platformLine :: strippedLines

def layout (h : Header) (length : Nat) : LoadM σ Layout := do
  let l ← LoadM.ofExcept (Layout.compute h length)
  LoadM.log [l.logLine]
  return l

def sections (data : Bytes) (h : Header) : LoadM σ (List ImageSection) := do
  let sections ← LoadM.ofExcept (ImageSection.table data h)
  LoadM.log (sections.map ImageSection.logLine)
  return sections

/-- Puts the annotations of a header into a sink. -/
def annotate [Sink σ] (h : Header) (length : Nat) (source : TypeSource) : LoadM σ Unit := do
  let l ← layout h length
  let annotations ← LoadM.ofLogged
    (Annotations.build h l (Platform.ofMachine h.machine) source)
  LoadM.registerAll annotations.registrations

end Load

/-- Loads `data` into a sink. -/
def loadInto {σ : Type} [Sink σ] (data : Bytes) (source : TypeSource) : LoadM σ Unit := do
  if !isTerse data then throw .notTerse
  let h ← LoadM.ofExcept (parseHeader data)
  let platform := Platform.ofMachine h.machine
  LoadM.log (Load.remarks h)
  let layout ← Load.layout h data.length
  let sections ← Load.sections data h
  let annotations ← LoadM.ofLogged (Annotations.build h layout platform source)
  let entry := h.entryPoint
  let signature := FunctionSignature.moduleEntryPoint entry platform
  LoadM.register (.platform platform)
  LoadM.registerAll (layout.regions.map .region)
  LoadM.log [⟨.info, .load, s!"Created {sections.length} section(s)"⟩]
  LoadM.registerAll (sections.map .imageSection)
  LoadM.registerAll annotations.registrations
  LoadM.log [⟨.info, .load, s!"Entry point at {Text.hex entry.toNat}: {signature.display}"⟩]
  LoadM.register (.entryPoint entry)
  LoadM.register (.symbol ⟨.function, entry, entryPointName⟩)
  LoadM.register (.functionType signature)

/-- Loads `data` into an image of its own. -/
def load (data : Bytes) (source : TypeSource) : Logged (Except LoadError Image) := do
  let (outcome, image) ← (loadInto data source).runOn Image.empty
  return outcome.map fun _ => image

end TeImage
