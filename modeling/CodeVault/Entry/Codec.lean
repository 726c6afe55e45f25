import CodeVault.Cursor

/-!
# Entries in a container

An entry takes 56 bytes: thirteen words and a reserved one. Flags and links of one run are not
written, and are not read either, whatever the bytes say.
-/

namespace CodeVault.Entry

/-- The number of bytes of an entry. -/
def encodedSize : Nat := 56

/-- The words of an entry, in order. -/
def words (entry : Entry) : List UInt32 :=
  [UInt32.ofNat entry.kind.number, entry.id, entry.offset, entry.size, entry.nameOffset,
   entry.nameSize, entry.codeOffset, entry.codeSize, UInt32.ofNat entry.level.toNat,
   entry.compileId, entry.decompile, entry.inlinedBytecodes,
   UInt32.ofNat entry.flags.persistent.toNat, 0]

/-- The bytes of an entry. -/
def encode (entry : Entry) : Bytes := (entry.words.flatMap fun w => wordBytes 4 w.toNat).toArray

/-- Reads an entry. -/
def decode : Reading Entry := do
  let start := (← get).pos
  let rawKind ← Cursor.readU32
  let some kind := EntryKind.ofNumber? rawKind.toNat | Cursor.corrupt (.unknownEntryKind rawKind)
  let id ← Cursor.readU32
  let offset ← Cursor.readU32
  let payloadSize ← Cursor.readU32
  let nameOffset ← Cursor.readU32
  let nameSize ← Cursor.readU32
  let codeOffset ← Cursor.readU32
  let codeSize ← Cursor.readU32
  let level ← Cursor.readU32
  if 256 ≤ level.toNat then Cursor.corrupt (.compilationLevel level)
  let compileId ← Cursor.readU32
  let decompile ← Cursor.readU32
  let inlinedBytecodes ← Cursor.readU32
  let flags ← Cursor.readU32
  Cursor.seek (start + Entry.encodedSize)
  return {
    kind, id, offset, size := payloadSize, nameOffset, nameSize, codeOffset, codeSize,
    level := UInt8.ofNat level.toNat, compileId, decompile, inlinedBytecodes,
    flags := (EntryFlags.ofNat flags.toNat).persistent, next := none }

end CodeVault.Entry
