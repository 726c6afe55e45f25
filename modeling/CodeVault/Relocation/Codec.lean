import CodeVault.Artifact.Section
import CodeVault.Context

/-!
# Relocations in a payload

The relocations of a section are written as their number, the end of the range that they cover, one
record of eight bytes each, one auxiliary word each, and then the constants that stand in the code
themselves.

* an auxiliary word is a symbol, an index of the artifact's table, a position in its code, or the
  marker, the greatest word, which none of these reaches: the marker says that a call calls itself,
  or that a constant follows behind the words;
* a call that calls its own place is written as such, wherever the section was generated.
-/

namespace CodeVault

/-- The auxiliary word of a call to itself and of a constant that follows behind the words. -/
def relocationMarker : UInt32 := 0xFFFFFFFF

/-- The number of bytes of a record and its auxiliary word. -/
def relocationRecordSize : Nat := 12

/-- Whether an offset lies in a section; in an empty section, whether it is zero. -/
def insideSection (offset : UInt32) (sectionSize : Nat) : Bool := offset.toNat < max 1 sectionSize

namespace Context

/-! ## 1. Writing -/

/-- Writes the record of a relocation, which must lie in its section. -/
def writeRecord (sectionSize : Nat) (relocation : Relocation) : Writing Unit := do
  if !insideSection relocation.offset sectionSize then
    throw (.malformed (.relocationOutside relocation.kind relocation.offset sectionSize))
  let _ ← Arena.writeU8 (UInt8.ofNat relocation.kind.code)
  let _ ← Arena.writeU8 relocation.format
  let _ ← Arena.writeU16 0
  let _ ← Arena.writeU32 relocation.offset

/-- The word of the symbol of an address. -/
def symbolWord (context : Context) (addr : Address) : Except (Fault CacheError) UInt32 :=
  match context.process.symbols.symbolOf addr with
  | .error e => .error (.error (.symbol e))
  | .ok symbol => orOverflow symbol.toRaw?

/-- The auxiliary word of an address in a section that starts at `origin`. -/
def targetWord (context : Context) (origin : Address) (relocation : Relocation) (target : Address) :
    Except (Fault CacheError) UInt32 :=
  if relocation.kind.isCall then
    match origin.after? relocation.offset.toNat with
    | none => .error (.halt .overflow)
    | some site => if target = site then .ok relocationMarker else context.symbolWord target
  else context.symbolWord target

/-- The auxiliary word of a relocation, and the constant to be written behind the words. -/
def auxiliary (context : Context) (origin : Address) (referenceCount : Nat)
    (relocation : Relocation) : Except (Fault CacheError) (UInt32 × Option Reference) :=
  match relocation.kind.operand, relocation.value with
  | .nothing, .none => .ok (0, none)
  | .target, .selfReference => .ok (relocationMarker, none)
  | .target, .address target =>
    (context.targetWord origin relocation target).map fun word => (word, none)
  | .constant, .immediate value =>
    liftError .lookupFailed ((context.encodeValue value).map fun r => (relocationMarker, some r))
  | .internal, .internal offset => .ok (offset, none)
  | .constant, .recorded index =>
    if index.toNat < referenceCount then .ok (index, none)
    else .error (.error (.malformed (.operand relocation.kind relocation.offset relocation.value)))
  | _, _ =>
    .error (.error (.malformed (.operand relocation.kind relocation.offset relocation.value)))

/-- Writes the auxiliary words and answers the constants to be written behind them. -/
def writeAuxiliaries (context : Context) (origin : Address) (referenceCount : Nat) :
    List Relocation → Encoding (List Reference)
  | [] => return []
  | relocation :: rest => do
    let (word, constant) ← ofOutcome (context.auxiliary origin referenceCount relocation)
    let _ ← Arena.writeU32 word
    let constants ← context.writeAuxiliaries origin referenceCount rest
    return constant.toList ++ constants

/-- Writes the relocations of a section of an artifact with `referenceCount` constants in its
    table. -/
def writeRelocations (context : Context) (referenceCount : Nat) (part : CodeSection) :
    Encoding Unit := do
  if wordSpace ≤ part.relocations.length then throw (.error (.malformed .tooManyRelocations))
  let _ ← Arena.writeU32 (UInt32.ofNat part.relocations.length)
  let _ ← Arena.writeU32 part.locsPoint
  part.relocations.forM fun relocation => (writeRecord part.bytes.size relocation : Writing Unit)
  let constants ← context.writeAuxiliaries part.origin referenceCount part.relocations
  constants.forM fun constant => (constant.write : Writing Unit)

/-! ## 2. Reading -/

/-- Reads the record of a relocation in a section: its kind, format and offset. -/
def readRecord (sectionSize : Nat) : Reading (RelocationKind × UInt8 × UInt32) := do
  let raw ← Cursor.readU8
  let some kind := RelocationKind.ofCode? raw.toNat | Cursor.corrupt (.unknownRelocationKind raw)
  let format ← Cursor.readU8
  let _ ← Cursor.readU16
  let offset ← Cursor.readU32
  if !insideSection offset sectionSize then Cursor.corrupt (.relocationOutside offset sectionSize)
  return (kind, format, offset)

/-- Reads a reference and answers the value that it stands for. -/
def readValue (context : Context) : Decoding EmbeddedValue := do
  let reference ← Reference.read
  match context.decodeValue reference with
  | .ok value => return value
  | .error fault => throw (fault.map .lookupFailed)

/-- The value of a relocation with an auxiliary word; a constant may have to be read. -/
def bindValue (context : Context) (referenceCount : Nat) (kind : RelocationKind) (word : UInt32) :
    Decoding RelocationValue :=
  match kind.operand with
  | .nothing => return .none
  | .target =>
    if word = relocationMarker then return .selfReference
    else match context.process.symbols.addressOf (Symbol.ofRaw word) with
      | .ok addr => return .address addr
      | .error fault => throw (fault.map .symbol)
  | .constant =>
    if word = relocationMarker then return .immediate (← context.readValue)
    else if word.toNat < referenceCount then return .recorded word
    else throw (.error (.corrupt (.recordedOutside word referenceCount)))
  | .internal => return .internal word

/-- Binds the relocations of records and auxiliary words to this process, one after the other. -/
def bindAll (context : Context) (referenceCount : Nat) :
    List ((RelocationKind × UInt8 × UInt32) × UInt32) → Decoding (List Relocation)
  | [] => return []
  | ((kind, format, offset), word) :: rest => do
    let value ← context.bindValue referenceCount kind word
    let relocations ← context.bindAll referenceCount rest
    return ⟨kind, offset, format, value⟩ :: relocations

/-- Reads the relocations of a section, and the end of the range that they cover. -/
def readRelocations (context : Context) (referenceCount sectionSize : Nat) :
    Decoding (List Relocation × UInt32) := do
  let count ← Cursor.readCount relocationRecordSize
  let locsPoint ← Cursor.readU32
  let records ← Cursor.readMany (readRecord sectionSize) count
  let words ← Cursor.readMany Cursor.readU32 count
  let relocations ← context.bindAll referenceCount (records.zip words)
  return (relocations, locsPoint)

end Context

end CodeVault
