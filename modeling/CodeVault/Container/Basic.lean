import CodeVault.Container.Header
import CodeVault.Index.Basic

/-!
# Containers

A container is bytes whose header was accepted.

* `ofBytes` accepts bytes by their header alone; the tables are read, and checked, when they are
  asked for;
* every entry that is read has its bytes inside the container;
* `loadIndex` reads all that look-ups need.
-/

namespace CodeVault

/-- Bytes and the header that they start with. -/
structure Container where
  bytes : Bytes
  header : Header
  deriving DecidableEq, Repr

namespace Container

/-- The container of bytes. -/
def ofBytes (data : Bytes) : Except CacheError Container := do
  let header ← Header.decode data
  return ⟨data, header⟩

/-- The bytes of a container without the time at which it was made; other bytes stay as they are. -/
def undated (data : Bytes) : Bytes :=
  if data.slice? 0 4 = some (Bytes.ofU32 Header.magic) ∧ Header.createdAtOffset + 8 ≤ data.size then
    data.overwrite Header.createdAtOffset (Bytes.zeros 8)
  else data

/-- The bytes of one entry. -/
def payload (container : Container) (entry : Entry) : Except CacheError Bytes :=
  container.bytes.readAt entry.offset.toNat entry.size.toNat

/-- Reads a string of the string table, which has to be text. -/
def readString : Reading CText := do
  let text ← Cursor.readTerminated
  let _ ← Cursor.decodeText text.val
  return text

/-- The interned strings of the run that wrote the container. -/
def strings (container : Container) : Except CacheError (List CText) :=
  Cursor.runAt container.bytes container.header.strings.offset.toNat
    (Cursor.readMany readString container.header.strings.count.toNat)

/-- Reads an entry whose bytes have to be in the container. -/
def readEntry (container : Container) : Reading Entry := do
  let entry ← Entry.decode
  match container.payload entry with
  | .ok _ => return entry
  | .error e => throw e

/-- The entries. -/
def entries (container : Container) : Except CacheError (List Entry) :=
  Cursor.runAt container.bytes container.header.entries.offset.toNat
    (Cursor.readMany container.readEntry container.header.entries.count.toNat)

/-- The keys of the entries, one for each. -/
def searchKeys (container : Container) : Except CacheError (List SearchKey) :=
  Cursor.runAt container.bytes container.header.searchOffset.toNat
    (Cursor.readMany SearchKey.decode container.header.entries.count.toNat)

/-- The places of the entries to be installed before their first call. -/
def preloadIndices (container : Container) : Except CacheError (List UInt32) :=
  Cursor.runAt container.bytes container.header.preload.offset.toNat
    (Cursor.readMany Cursor.readU32 container.header.preload.count.toNat)

/-- The index over the entries. -/
def loadIndex (container : Container) : Except CacheError EntryIndex := do
  let entries ← container.entries
  let keys ← container.searchKeys
  let preload ← container.preloadIndices
  EntryIndex.ofLoaded entries.toArray keys.toArray preload.toArray

end Container

end CodeVault
