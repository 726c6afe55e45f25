import CodeVault.Artifact.Basic
import CodeVault.Relocation.Codec

/-!
# Writing an artifact

The payload of an artifact is written at a boundary, part by part:

* the name; the descriptors of the three sections; their bytes, each at a boundary;
* the number of table constants, and the relocations of the three sections, with the constants that
  stand in the code;
* the tables of the managed runtime; the table of constants; for compiled methods, the dependencies.

Where a section's bytes are is written into its descriptor afterwards. A failure takes back all that
was written of the payload (`writeArtifact`).
-/

namespace CodeVault

/-- Where a payload was written; the offsets of the name and the code count from its start. -/
structure PayloadLayout where
  offset : Nat
  size : Nat
  nameOffset : UInt32
  nameSize : UInt32
  codeOffset : UInt32
  codeSize : UInt32
  deriving DecidableEq, Repr

namespace Artifact

/-! ## 1. Lengths and counts -/

/-- A length as a word. -/
def length32 (part : Part) (length : Nat) : Except CacheError UInt32 :=
  if length < wordSpace then .ok (UInt32.ofNat length)
  else .error (.malformed (.tooLong part length))

/-- Writes a length. -/
def writeCount (part : Part) (length : Nat) : Writing Unit := do
  let count ← ofOutcome (length32 part length)
  let _ ← Arena.writeU32 count

/-- Writes bytes with their length before them. -/
def writeBlob (part : Part) (bytes : Bytes) : Writing Unit := do
  writeCount part bytes.size
  let _ ← Arena.write bytes

/-- Writes things with their number before them. -/
def writeList {α : Type} (part : Part) (item : α → Writing Unit) (items : List α) :
    Writing Unit := do
  writeCount part items.length
  items.forM item

/-- Writes a word of four bytes, wherever it lands. -/
def writeWord (value : UInt32) : Writing Unit := do
  let _ ← Arena.writeU32 value

/-! ## 2. Sections -/

/-- Writes the descriptor of a section and answers where the place of its bytes is to be written. -/
def writeDescriptor (slot : CodeSection × SectionKind) : Writing Nat := do
  let (part, expected) := slot
  if part.kind ≠ expected then throw (.malformed (.sectionSlot part.kind expected))
  writeWord (UInt32.ofNat part.kind.code)
  let size ← ofOutcome (length32 .sectionBytes part.bytes.size)
  writeWord size
  let _ ← Arena.writeAddress part.origin
  let place ← Arena.writeU32 0
  writeWord 0
  return place

/-- Writes the bytes of a section at a boundary, and where they are into its descriptor. -/
def writeSection (start : Nat) (slot : CodeSection × Nat) : Encoding Unit := do
  let (part, place) := slot
  Arena.align
  let offset ← ofOutcome (liftError (fun e => e) (length32 .offset ((← get).position - start)))
  let _ ← Arena.write part.bytes
  Arena.patchU32 place offset

/-! ## 3. Tables of the managed runtime -/

/-- Writes the tables that a managed runtime needs of the code. -/
def writeTables (artifact : Artifact) : Writing Unit := do
  writeWord artifact.frame.frameSize
  writeList .entryPoints writeWord artifact.frame.entryOffsets
  writeList .oopMaps (fun (map : OopMap) => do
    writeWord map.pcOffset
    writeList .oopMapSlots writeWord map.slots) artifact.oopMaps
  writeList .pcDescriptors (fun (desc : PcDescriptor) => do
    writeWord desc.pcOffset
    let _ ← Arena.writeI32 desc.scopeOffset
    let _ ← Arena.writeI32 desc.objOffset
    writeWord desc.flags) artifact.pcDescriptors
  writeBlob .scopeStream artifact.scopes
  writeList .exceptionTable (fun (handler : ExceptionHandler) => do
    writeWord handler.pcOffset
    writeWord handler.handlerOffset
    writeWord handler.scopeDepth) artifact.exceptionHandlers
  writeList .nullCheckTable (fun (check : NullCheck) => do
    writeWord check.execOffset
    writeWord check.continuationOffset) artifact.nullChecks

end Artifact

namespace Context

/-! ## 4. The payload -/

/-- Writes the constants of the table. -/
def writeReferences (context : Context) : List EmbeddedValue → Writing Unit
  | [] => return
  | value :: rest => do
    match context.encodeValue value with
    | .ok reference => reference.write
    | .error cause => throw (.lookupFailed cause)
    context.writeReferences rest

/-- Writes the payload of an artifact, which starts at `start`. -/
def writePayload (context : Context) (artifact : Artifact) (start : Nat) :
    Encoding PayloadLayout := do
  let (nameAt, nameSize) ← Arena.writeCString artifact.name
  Arena.align
  let codeOffset ← ofOutcome
    (liftError (fun e => e) (Artifact.length32 .offset ((← get).position - start)))
  let places ← (artifact.sections.zip Sections.kinds).mapM fun slot =>
    (Artifact.writeDescriptor slot : Writing Nat)
  let _ ← (artifact.sections.zip places).mapM (Artifact.writeSection start)
  Arena.align
  (Artifact.writeCount .referenceTable artifact.references.length : Writing Unit)
  let _ ← artifact.sections.mapM (context.writeRelocations artifact.references.length)
  Arena.align
  (artifact.writeTables : Writing Unit)
  (context.writeReferences artifact.references : Writing Unit)
  if artifact.kind = .code then
    (Artifact.writeBlob .dependencies artifact.dependencies : Writing Unit)
  let finish := (← get).position
  let nameOffset ← ofOutcome (liftError (fun e => e) (Artifact.length32 .offset (nameAt - start)))
  let nameSize ← ofOutcome (liftError (fun e => e) (Artifact.length32 .name nameSize))
  let codeSize ← ofOutcome (liftError (fun e => e) (Artifact.length32 .code artifact.codeSize))
  return ⟨start, finish - start, nameOffset, nameSize, codeOffset, codeSize⟩

/-- Writes the payload of an artifact at the next boundary. A failure leaves nothing of it behind; a
    process that stops does so where it is. -/
def writeArtifact (context : Context) (artifact : Artifact) : Encoding PayloadLayout := do
  Arena.align
  fun arena =>
    let start := arena.position
    match context.writePayload artifact start arena with
    | .ok layout after => .ok layout after
    | .error (.error e) after => .error (.error e) (after.truncate start)
    | .error (.halt why) after => .error (.halt why) after

end Context

end CodeVault
