import CodeVault.Error
import CodeVault.Fault
import CodeVault.Text.Terminated

/-!
# The cursor

A place in bytes that are only read. Every read either lies inside the bytes or is refused and
leaves the cursor where it is.

* `seek` and `readBytes` are the only actions that move a cursor; everything else is made of them;
* counts are checked against what is left before anything is made of them.
-/

namespace CodeVault

/-- Bytes and a place in them, or at their end. -/
structure Cursor where
  data : Bytes
  pos : Nat
  pos_le : pos ≤ data.size

/-- An action that reads. What it read before it stopped stays read. -/
abbrev Reading := EStateM CacheError Cursor

/-- An action that reads and also computes with addresses. -/
abbrev Decoding := EStateM (Fault CacheError) Cursor

/-! ## 1. Ranges of bytes -/

namespace Bytes

/-- The `size` bytes at `offset` of a mapped container. -/
def readAt (data : Bytes) (offset size : Nat) : Except CacheError Bytes :=
  match data.slice? offset size with
  | some part => .ok part
  | none => .error (.corrupt (.shortMappedRead size offset data.size))

end Bytes

namespace Cursor

/-! ## 2. Moving -/

/-- The cursor at the start of bytes. -/
def ofBytes (data : Bytes) : Cursor := ⟨data, 0, Nat.zero_le _⟩

/-- The number of bytes from the cursor on. -/
def remaining (cursor : Cursor) : Nat := cursor.data.size - cursor.pos

/-- Stops because of what the bytes hold. -/
def corrupt {α : Type} (cause : Corruption) : Reading α := throw (.corrupt cause)

/-- Goes to a place in the bytes, or to their end. -/
def seek (pos : Nat) : Reading Unit := fun cursor =>
  if h : pos ≤ cursor.data.size then .ok () { cursor with pos := pos, pos_le := h }
  else .error (.corrupt (.seekPastEnd pos cursor.data.size)) cursor

/-- Reads the next `n` bytes. -/
def readBytes (n : Nat) : Reading Bytes := fun cursor =>
  if h : cursor.pos + n ≤ cursor.data.size then
    .ok (cursor.data.extract cursor.pos (cursor.pos + n))
      { cursor with pos := cursor.pos + n, pos_le := h }
  else .error (.corrupt (.shortRead n cursor.pos cursor.data.size)) cursor

/-- Runs an action from a place in bytes on. -/
def runAt {α : Type} (data : Bytes) (pos : Nat) (action : Reading α) : Except CacheError α :=
  match (do seek pos; action : Reading α) (ofBytes data) with
  | .ok a _ => .ok a
  | .error e _ => .error e

/-! ## 3. Words, counts and texts -/

/-- Reads a byte. -/
def readU8 : Reading UInt8 := do return UInt8.ofNat (← readBytes 1).toNat

/-- Reads a word of two bytes. -/
def readU16 : Reading UInt16 := do return UInt16.ofNat (← readBytes 2).toNat

/-- Reads a word of four bytes. -/
def readU32 : Reading UInt32 := do return UInt32.ofNat (← readBytes 4).toNat

/-- Reads a signed word of four bytes. -/
def readI32 : Reading Int32 := do return (← readU32).toInt32

/-- Reads a word of eight bytes. -/
def readU64 : Reading UInt64 := do return UInt64.ofNat (← readBytes 8).toNat

/-- Reads an address. -/
def readAddress : Reading Address := readU64

/-- Reads a count of things of at least `minSize` bytes each, for which there must be enough bytes
    left. -/
def readCount (minSize : Nat) : Reading Nat := do
  let count := (← readU32).toNat
  let cursor ← get
  if cursor.remaining < count * minSize then
    corrupt (.countPastEnd count cursor.pos cursor.remaining)
  return count

/-- The text of bytes. -/
def decodeText (bytes : Bytes) : Reading String :=
  match Utf8.decode bytes with
  | .ok text => pure text
  | .error fault => corrupt (.notText fault)

/-- Reads a text that has its length before it. -/
def readString : Reading String := do
  let size := (← readU32).toNat
  decodeText (← readBytes size)

/-- Reads bytes up to a nul, which is read too. -/
def readTerminated : Reading CText := fun cursor =>
  match h : cursor.data.findByte? 0 cursor.pos with
  | none => .error (.corrupt (.unterminated cursor.pos)) cursor
  | some finish =>
    .ok ⟨cursor.data.extract cursor.pos finish, Bytes.not_mem_extract_of_findByte? h⟩
      { cursor with pos := finish + 1, pos_le := Bytes.lt_size_of_findByte? h }

/-- Reads a text that has a nul after it. -/
def readCString : Reading String := do decodeText (← readTerminated).val

/-- Goes to the next boundary. -/
def align : Reading Unit := do seek (alignUp (← get).pos)

/-- Reads `count` things. -/
def readMany {α : Type} (item : Reading α) : Nat → Reading (List α)
  | 0 => return []
  | count + 1 => do
    let first ← item
    let rest ← readMany item count
    return first :: rest

/-- Reads a count and that many things of at least `minSize` bytes each. -/
def readList {α : Type} (minSize : Nat) (item : Reading α) : Reading (List α) := do
  readMany item (← readCount minSize)

/-- Reads bytes that have their length before them. -/
def readBlob : Reading Bytes := do readBytes (← readCount 1)

end Cursor

end CodeVault
