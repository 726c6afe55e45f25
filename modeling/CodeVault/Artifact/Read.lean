import CodeVault.Artifact.Basic
import CodeVault.Relocation.Codec

/-!
# Reading an artifact

A payload is read together with its entry, which says where the name and the code are and how long
they must be. Whatever the bytes are, reading either answers an artifact or says what is wrong with
them.

* `peekName` and `peekSections` read the name and the section descriptors alone; they need no
  process;
* `readArtifact` reads everything, in the order in which it was written, and binds it to the
  process.
-/

namespace CodeVault

/-! ## 1. Name and section descriptors -/

/-- Where a section's bytes are in the payload, how many there are, and the address they were
    generated at. -/
structure SectionDescriptor where
  kind : SectionKind
  size : UInt32
  origin : Address
  offset : UInt32
  deriving DecidableEq, Repr

namespace SectionDescriptor

/-- The number of bytes of a section descriptor. -/
def encodedSize : Nat := 24

/-- Reads the descriptor of the section that is due. -/
def read (expected : SectionKind) : Reading SectionDescriptor := do
  let start := (← get).pos
  let raw ← Cursor.readU32
  if SectionKind.ofCode? raw.toNat ≠ some expected then
    Cursor.corrupt (.sectionExpected raw expected)
  let size ← Cursor.readU32
  let origin ← Cursor.readAddress
  let offset ← Cursor.readU32
  Cursor.seek (start + encodedSize)
  return ⟨expected, size, origin, offset⟩

/-- Where the bytes of a section end. -/
def finish (descriptor : SectionDescriptor) : Nat := descriptor.offset.toNat + descriptor.size.toNat

end SectionDescriptor

namespace Payload

/-- The name in the payload of an entry. -/
def peekName (payload : Bytes) (entry : Entry) : Except CacheError String := do
  let name ← Cursor.runAt payload entry.nameOffset.toNat Cursor.readCString
  let size := (Bytes.ofString name).size + 1
  if size ≠ entry.nameSize.toNat then throw (.corrupt (.nameSize entry.id size entry.nameSize))
  return name

/-- Refuses a section that ends behind the payload. -/
def checkSection (payload : Bytes) (entry : Entry) (descriptor : SectionDescriptor) :
    Except CacheError Unit :=
  if payload.size < descriptor.finish then
    .error (.corrupt (.sectionEnd descriptor.kind entry.id descriptor.finish payload.size))
  else .ok ()

/-- The section descriptors in the payload of an entry. The sections lie in the payload, and
    together they have the code size of the entry. -/
def peekSections (payload : Bytes) (entry : Entry) :
    Except CacheError (Sections SectionDescriptor) := do
  let descriptors ← Cursor.runAt payload entry.codeOffset.toNat
    (Sections.kinds.mapM SectionDescriptor.read)
  let _ ← descriptors.mapM (checkSection payload entry)
  let total := descriptors.consts.size.toNat + descriptors.insts.size.toNat
    + descriptors.stubs.size.toNat
  if total ≠ entry.codeSize.toNat then
    throw (.corrupt (.codeSize entry.id total entry.codeSize))
  return descriptors

end Payload

/-! ## 2. Sections and tables -/

namespace Artifact

/-- Reads the bytes of a section, which must be where its descriptor says. -/
def readSection (entry : Entry) (descriptor : SectionDescriptor) : Reading CodeSection := do
  Cursor.align
  let pos := (← get).pos
  if pos ≠ descriptor.offset.toNat then
    Cursor.corrupt (.sectionStart descriptor.kind entry.id descriptor.offset pos)
  let bytes ← Cursor.readBytes descriptor.size.toNat
  return ⟨descriptor.kind, descriptor.origin, bytes, 0, []⟩

/-- The tables that a managed runtime needs of the code. -/
structure Tables where
  frame : FrameLayout
  oopMaps : List OopMap
  pcDescriptors : List PcDescriptor
  scopes : Bytes
  exceptionHandlers : List ExceptionHandler
  nullChecks : List NullCheck
  deriving DecidableEq

/-- Reads the map of one place. -/
def readOopMap : Reading OopMap := do
  let pcOffset ← Cursor.readU32
  let slots ← Cursor.readList 4 Cursor.readU32
  return ⟨pcOffset, slots⟩

/-- Reads the debug information of one place. -/
def readPcDescriptor : Reading PcDescriptor := do
  let pcOffset ← Cursor.readU32
  let scopeOffset ← Cursor.readI32
  let objOffset ← Cursor.readI32
  let flags ← Cursor.readU32
  return ⟨pcOffset, scopeOffset, objOffset, flags⟩

/-- Reads the handler of one place. -/
def readExceptionHandler : Reading ExceptionHandler := do
  let pcOffset ← Cursor.readU32
  let handlerOffset ← Cursor.readU32
  let scopeDepth ← Cursor.readU32
  return ⟨pcOffset, handlerOffset, scopeDepth⟩

/-- Reads one null check. -/
def readNullCheck : Reading NullCheck := do
  let execOffset ← Cursor.readU32
  let continuationOffset ← Cursor.readU32
  return ⟨execOffset, continuationOffset⟩

/-- Reads the tables that a managed runtime needs of the code. -/
def readTables : Reading Tables := do
  let frameSize ← Cursor.readU32
  let entryOffsets ← Cursor.readList 4 Cursor.readU32
  let oopMaps ← Cursor.readList 8 readOopMap
  let pcDescriptors ← Cursor.readList 16 readPcDescriptor
  let scopes ← Cursor.readBlob
  let exceptionHandlers ← Cursor.readList 12 readExceptionHandler
  let nullChecks ← Cursor.readList 8 readNullCheck
  return ⟨⟨frameSize, entryOffsets⟩, oopMaps, pcDescriptors, scopes, exceptionHandlers, nullChecks⟩

/-- How the code of an entry was compiled. -/
def compileInfo (entry : Entry) : CompileInfo :=
  ⟨entry.level, entry.compileId, entry.decompile, entry.inlinedBytecodes, entry.flags.forPreload,
   entry.flags.initBarriers⟩

end Artifact

namespace Context

/-! ## 3. The payload -/

/-- Reads `count` constants of the table. -/
def readReferences (context : Context) : Nat → Decoding (List EmbeddedValue)
  | 0 => return []
  | count + 1 => do
    let value ← context.readValue
    let rest ← context.readReferences count
    return value :: rest

/-- Reads what follows the section descriptors, from there on. -/
def readBody (context : Context) (entry : Entry) (name : String)
    (descriptors : Sections SectionDescriptor) : Decoding Artifact := do
  let sections ← descriptors.mapM fun d => (Artifact.readSection entry d : Reading CodeSection)
  Cursor.align
  let referenceCount ← Cursor.readCount 4
  let sections ← sections.mapM fun part => do
    let (relocations, locsPoint) ← context.readRelocations referenceCount part.bytes.size
    return { part with relocations, locsPoint }
  Cursor.align
  let tables ← Artifact.readTables
  let references ← context.readReferences referenceCount
  let dependencies ← if entry.kind = .code then (Cursor.readBlob : Reading Bytes) else pure #[]
  return {
    kind := entry.kind, id := entry.id, name, sections, frame := tables.frame,
    oopMaps := tables.oopMaps, pcDescriptors := tables.pcDescriptors, scopes := tables.scopes,
    exceptionHandlers := tables.exceptionHandlers, nullChecks := tables.nullChecks, references,
    dependencies, compile := Artifact.compileInfo entry }

/-- The artifact in the payload of an entry, and the number of bytes read of it. -/
def readPayload (context : Context) (payload : Bytes) (entry : Entry) :
    Except (Fault CacheError) (Artifact × Nat) := do
  let name ← liftError (fun e => e) (Payload.peekName payload entry)
  let descriptors ← liftError (fun e => e) (Payload.peekSections payload entry)
  let start := entry.codeOffset.toNat + 3 * SectionDescriptor.encodedSize
  match (do Cursor.seek start; context.readBody entry name descriptors : Decoding Artifact)
      (Cursor.ofBytes payload) with
  | .ok artifact cursor => .ok (artifact, cursor.pos)
  | .error fault _ => .error fault

/-- The artifact in the payload of an entry. -/
def readArtifact (context : Context) (payload : Bytes) (entry : Entry) :
    Except (Fault CacheError) Artifact :=
  (context.readPayload payload entry).map (·.1)

end Context

end CodeVault
