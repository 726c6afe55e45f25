import CodeVault.Entry.Codec
import CodeVault.Fingerprint.Codec
import CodeVault.Index.SearchTable
import CodeVault.Timestamp

/-!
# The header of a container

The first 96 bytes of a container say where its tables are, how many entries of each kind it holds,
and the fingerprint of the process that wrote it.

* `encode` is the words of a header in their order; two words are reserved. `write` writes them into
  an arena;
* `decode` checks the mark, the version and the size before it reads the rest, and the places of the
  tables afterwards (`boundsFault?`). The fingerprint is left to the caller.
-/

namespace CodeVault

/-- A table of a container: how many items, and where the first is. -/
structure Region where
  count : UInt32
  offset : UInt32
  deriving DecidableEq, Repr

/-- The numbers of entries by kind. -/
structure KindCounts where
  adapters : UInt32
  stubs : UInt32
  blobs : UInt32
  code : UInt32
  deriving DecidableEq, Repr

namespace KindCounts

/-- No entries. -/
def zero : KindCounts := ⟨0, 0, 0, 0⟩

/-- One more entry of a kind. -/
def record (counts : KindCounts) : EntryKind → KindCounts
  | .adapter => { counts with adapters := counts.adapters + 1 }
  | .stub => { counts with stubs := counts.stubs + 1 }
  | .sharedBlob | .tier1Blob | .tier2Blob => { counts with blobs := counts.blobs + 1 }
  | .code => { counts with code := counts.code + 1 }
  | .none => counts

/-- The number of entries of all kinds together. -/
def total (counts : KindCounts) : Nat :=
  counts.adapters.toNat + counts.stubs.toNat + counts.blobs.toNat + counts.code.toNat

end KindCounts

/-- The header of a container; `createdAt` counts seconds since 1970 began. -/
structure Header where
  version : UInt32
  size : UInt32
  createdAt : UInt64
  strings : Region
  entries : Region
  searchOffset : UInt32
  preload : Region
  counts : KindCounts
  fingerprint : Fingerprint
  deriving DecidableEq, Repr

namespace Header

/-! ## 1. The bytes of a header -/

/-- The number of bytes of a header. -/
def encodedSize : Nat := 96

/-- Where the time of creation is in a header. -/
def createdAtOffset : Nat := 16

/-- The mark of a container, the letters `CCCH`. -/
def magic : UInt32 := 0x48434343

/-- The version that is written and read. -/
def formatVersion : UInt32 := 1

/-- The header of a container without tables. -/
def blank (fingerprint : Fingerprint) (createdAt : UInt64) : Header :=
  ⟨formatVersion, 0, createdAt, ⟨0, 0⟩, ⟨0, 0⟩, 0, ⟨0, 0⟩, .zero, fingerprint⟩

/-- The words after the time of creation, in order. -/
def words (header : Header) : List UInt32 :=
  [header.strings.count, header.strings.offset, header.entries.count, header.entries.offset,
   header.searchOffset, header.preload.count, header.preload.offset, header.counts.adapters,
   header.counts.stubs, header.counts.blobs, header.counts.code] ++ header.fingerprint.words ++ [0]

/-- The bytes of a header. -/
def encode (header : Header) : Bytes :=
  Bytes.ofU32 magic ++ Bytes.ofU32 header.version ++ Bytes.ofU32 header.size ++ Bytes.ofU32 0
    ++ Bytes.ofU64 header.createdAt ++ (header.words.flatMap fun w => wordBytes 4 w.toNat).toArray

/-- Writes a region: its count, then its place. -/
def writeRegion (region : Region) : Writing Unit := do
  let _ ← Arena.writeU32 region.count
  let _ ← Arena.writeU32 region.offset

/-- Writes the words of a header, but for the last one. -/
def writeWords (header : Header) : Writing Unit := do
  let _ ← Arena.writeU32 magic
  let _ ← Arena.writeU32 header.version
  let _ ← Arena.writeU32 header.size
  let _ ← Arena.writeU32 0
  let _ ← Arena.writeU64 header.createdAt
  writeRegion header.strings
  writeRegion header.entries
  let _ ← Arena.writeU32 header.searchOffset
  writeRegion header.preload
  let _ ← Arena.writeU32 header.counts.adapters
  let _ ← Arena.writeU32 header.counts.stubs
  let _ ← Arena.writeU32 header.counts.blobs
  let _ ← Arena.writeU32 header.counts.code
  header.fingerprint.write

/-- Writes a header into an arena of its own, filled up with zeros to its size. -/
def write (header : Header) : Encoding Unit := do
  (header.writeWords : Writing Unit)
  let _ ← Arena.reserve (encodedSize - (← get).position)

/-- Reads a region: its count, then its place. -/
def readRegion : Reading Region := do
  let count ← Cursor.readU32
  let offset ← Cursor.readU32
  return ⟨count, offset⟩

/-! ## 2. Places of tables -/

/-- What is wrong with a table of `count` items of `itemSize` bytes. -/
def tableFault? (size : Nat) (table : TableName) (offset count : UInt32) (itemSize : Nat) :
    Option LayoutFault :=
  let finish := offset.toNat + count.toNat * itemSize
  if offset.toNat < encodedSize || size < finish then
    some (.tableOutside table offset.toNat finish size)
  else none

/-- What is wrong with the places and counts of a header: a table is outside the container or in the
    header, the strings start behind the end, or the kinds do not add up to the entries. -/
def boundsFault? (header : Header) : Option LayoutFault :=
  let size := header.size.toNat
  (tableFault? size .entry header.entries.offset header.entries.count Entry.encodedSize)
    <|> (tableFault? size .search header.searchOffset header.entries.count SearchKey.size)
    <|> (tableFault? size .preload header.preload.offset header.preload.count 4)
    <|> (if size < header.strings.offset.toNat then
          some (.stringsOutside header.strings.offset.toNat size) else none)
    <|> (if header.counts.total ≠ header.entries.count.toNat then
          some (.kindCounts header.counts.total header.entries.count.toNat) else none)

/-! ## 3. Reading a header -/

/-- Reads the header of a container of `actual` bytes, from its first byte on. -/
def read (actual : Nat) : Reading Header := do
  if (← Cursor.readU32) ≠ magic then throw .badMagic
  let version ← Cursor.readU32
  if version ≠ formatVersion then throw (.versionMismatch version formatVersion)
  let size ← Cursor.readU32
  if size.toNat ≠ actual then throw (.sizeMismatch size.toNat actual)
  let _ ← Cursor.readU32
  let createdAt ← Cursor.readU64
  let strings ← readRegion
  let entries ← readRegion
  let searchOffset ← Cursor.readU32
  let preload ← readRegion
  let adapters ← Cursor.readU32
  let stubs ← Cursor.readU32
  let blobs ← Cursor.readU32
  let code ← Cursor.readU32
  let fingerprint ← Fingerprint.read
  let header : Header :=
    { version, size, createdAt, strings, entries, searchOffset, preload,
      counts := ⟨adapters, stubs, blobs, code⟩, fingerprint }
  match header.boundsFault? with
  | some fault => throw (.layout fault)
  | none => return header

/-- The header of a container. -/
def decode (data : Bytes) : Except CacheError Header :=
  if data.size < encodedSize then .error (.sizeMismatch encodedSize data.size)
  else Cursor.runAt data 0 (read data.size)

/-- The time of creation as reports show it. -/
def created? (header : Header) : Option String := Timestamp.render? header.createdAt.toNat

end Header

end CodeVault
